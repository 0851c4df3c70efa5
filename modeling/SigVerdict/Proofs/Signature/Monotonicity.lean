import SigVerdict.Proofs.Signature.Commands

set_option autoImplicit false

/-! # Requiring less and supplying more

A requirement is easier to meet when its count is smaller or when it is not strict, and more
signatures do no harm once enough are good. The first holds since a survey that needs fewer good
signatures reaches a front of the others (`upTo_prefix_of_le`), and the second since what stands
behind the signatures that are reached is not looked at (`reached_append_of_enough`). Both need a
list that is not empty: an empty one is verified by any count, unless that is strict
(`checkAll_monotone`). -/

namespace SigVerdict.Signature

open Gpg

variable {σ : Type}

/-! ## The signatures that are reached -/

theorem upTo_prefix_of_le (good : σ → Bool) {n m : Nat} (h : n ≤ m) (signatures : List σ) :
    upTo good n signatures <+: upTo good m signatures := by
  induction signatures generalizing n m with
  | nil => cases n <;> cases m <;> exact List.prefix_refl _
  | cons s rest ih =>
      cases n with
      | zero => exact List.nil_prefix
      | succ n =>
          obtain ⟨k, rfl⟩ := Nat.exists_eq_add_of_lt h
          refine (List.prefix_cons_inj s).2 (ih ?_)
          split <;> omega

namespace Required

variable {judge : σ → Except Fault Unit} {n m : Count} {signatures : List σ}

theorem reached_prefix_of_le (good : σ → Bool) (h : n.value ≤ m.value) :
    (Required.count n).reached good 0 signatures <+: (Required.count m).reached good 0 signatures :=
  upTo_prefix_of_le good h signatures

theorem reached_append_of_enough {good : σ → Bool} (h : n.value ≤ signatures.countP good)
    (extra : List σ) :
    (Required.count n).reached good 0 (signatures ++ extra) =
      (Required.count n).reached good 0 signatures :=
  upTo_append_of_le h extra

end Required

/-! ## Reports -/

variable {judge : σ → Except Fault Unit} {collection : String} {signatures : List σ}

/-- Signatures that are verified by a count have so many good ones among them. -/
theorem le_countP_of_verified {strict : Bool} {n : Count} {report : Report} (hne : signatures ≠ [])
    (h : checkAll judge ⟨strict, .count n⟩ collection signatures = .ok report)
    (hverified : report.verified = true) : n.value ≤ signatures.countP (verifies judge) :=
  (Requirement.holdsOver_count_iff_of_ne_nil rfl hne).1 ((verified_iff_holdsOver h).1 hverified)

theorem exists_verified_of_le {strict strict' : Bool} {n m : Count} {report : Report}
    (hne : signatures ≠ []) (hle : n.value ≤ m.value)
    (h : checkAll judge ⟨strict, .count m⟩ collection signatures = .ok report)
    (hverified : report.verified = true) :
    ∃ report', checkAll judge ⟨strict', .count n⟩ collection signatures = .ok report' ∧
      report'.verified = true := by
  have hnone := (checkAll_eq_ok_iff.1 h).1
  have hreport : checkAll judge ⟨strict', .count n⟩ collection signatures = .ok _ :=
    checkAll_eq_ok_iff.2
      ⟨fun s hs => hnone s ((Required.reached_prefix_of_le _ hle).subset hs), rfl⟩
  refine ⟨_, hreport, (verified_iff_holdsOver hreport).2 ?_⟩
  rw [Requirement.holdsOver_count_iff_of_ne_nil rfl hne]
  exact hle.trans (le_countP_of_verified hne h hverified)

theorem checkAll_append_of_verified {strict : Bool} {n : Count} {report : Report}
    (hne : signatures ≠ [])
    (h : checkAll judge ⟨strict, .count n⟩ collection signatures = .ok report)
    (hverified : report.verified = true) (extra : List σ) :
    checkAll judge ⟨strict, .count n⟩ collection (signatures ++ extra) =
      .ok { report with total := (signatures ++ extra).length } := by
  have henough := le_countP_of_verified hne h hverified
  have hreached := Required.reached_append_of_enough henough extra
  obtain ⟨hnone, rfl⟩ := checkAll_eq_ok_iff.1 h
  rw [← hreached] at hnone
  have hextra : checkAll judge ⟨strict, .count n⟩ collection (signatures ++ extra) = .ok _ :=
    checkAll_eq_ok_iff.2 ⟨hnone, rfl⟩
  have hover : (⟨strict, .count n⟩ : Requirement).HoldsOver judge (signatures ++ extra) := by
    rw [Requirement.holdsOver_count_iff_of_ne_nil rfl (List.append_ne_nil_of_left_ne_nil hne _),
      List.countP_append]
    exact henough.trans (Nat.le_add_right _ _)
  -- nothing is lacking before or after, and the total has no other use
  have hbefore := Option.isNone_iff_eq_none.1 hverified
  have hafter := Option.isNone_iff_eq_none.1 ((verified_iff_holdsOver hextra).2 hover)
  simp only [Report.ofTally] at hbefore hafter
  rw [hextra, Report.ofTally, Report.ofTally, hbefore, hafter, hreached]

/-- Two reports have the same verdict and the same numbers, from the same failures. -/
structure Report.SameNumbers (r s : Report) : Prop where
  verified : r.verified = s.verified
  total : r.total = s.total
  successful : r.successful = s.successful
  ignored : r.ignored = s.ignored
  failures : r.failures = s.failures

/-- A strict count asks for no more than the count itself when there are signatures. -/
theorem endAlike_strict (n : Count) (hne : signatures ≠ []) :
    EndAlike Report.SameNumbers (checkAll judge ⟨false, .count n⟩ collection signatures)
      (checkAll judge ⟨true, .count n⟩ collection signatures) := by
  refine endAlike_of_reached rfl rfl fun r s hr hs => ?_
  have hverified : r.verified = s.verified := by
    rw [Bool.eq_iff_iff, verified_iff_holdsOver hr, verified_iff_holdsOver hs,
      Requirement.holdsOver_count_iff_of_ne_nil rfl hne,
      Requirement.holdsOver_count_iff_of_ne_nil rfl hne]
  obtain ⟨-, rfl⟩ := checkAll_eq_ok_iff.1 hr
  obtain ⟨-, rfl⟩ := checkAll_eq_ok_iff.1 hs
  exact ⟨hverified, rfl, rfl, rfl, rfl⟩

/-- What is verified by a strict requirement is verified by the same one that is not strict. -/
theorem exists_verified_of_strict {required : Required} {report : Report}
    (h : checkAll judge ⟨true, required⟩ collection signatures = .ok report)
    (hverified : report.verified = true) :
    ∃ report', checkAll judge ⟨false, required⟩ collection signatures = .ok report' ∧
      report'.verified = true := by
  have hreport : checkAll judge ⟨false, required⟩ collection signatures = .ok _ :=
    checkAll_eq_ok_iff.2 ⟨(checkAll_eq_ok_iff.1 h).1, rfl⟩
  refine ⟨_, hreport, (verified_iff_holdsOver hreport).2 ⟨nofun, ?_⟩⟩
  exact ((verified_iff_holdsOver h).1 hverified).required

/-! ## Commands -/

section Commands

variable {launcher : Launcher} {verifier : Verifier} {manifest : String}
  {ignored : List Status.Kind}

/-- A smaller count starts commands from the front of those that a greater one starts. -/
theorem startedCommands_prefix_of_le {n m : Count} (h : n.value ≤ m.value)
    (signatures : List String) :
    startedCommands launcher verifier manifest ignored (.count n) collection signatures <+:
      startedCommands launcher verifier manifest ignored (.count m) collection signatures := by
  rw [startedCommands_eq, startedCommands_eq]
  exact ((throughFirst_mono _ (Required.reached_prefix_of_le _ h)).map _).filter _

/-- No commands are started over signatures behind enough good ones. -/
theorem startedCommands_append_of_enough {n : Count} {signatures : List String}
    (h : n.value ≤ signatures.countP (verifies (check launcher verifier manifest ignored)))
    (extra : List String) :
    startedCommands launcher verifier manifest ignored (.count n) collection
        (signatures ++ extra) =
      startedCommands launcher verifier manifest ignored (.count n) collection signatures := by
  rw [startedCommands_eq, startedCommands_eq, Required.checked, Required.checked,
    Required.reached_append_of_enough h]

end Commands

/-- **Requiring less, supplying more.** When there are signatures, then what is verified by a count
    is verified by any smaller one, strict or not, with commands that are the first ones of those
    before; it has the same report but for the total, and no further command is started, whatever
    signatures are added behind it; and it does not matter whether the count is strict.
    Any list that is verified by a strict requirement is verified by one that is not strict. -/
theorem checkAll_monotone (launcher : Launcher) (verifier : Verifier) (manifest : String)
    (ignored : List Status.Kind) (collection : String) (signatures : List String) :
    (signatures ≠ [] →
      (∀ strict strict' n m report, n.value ≤ m.value →
        checkAll (check launcher verifier manifest ignored) ⟨strict, .count m⟩ collection
          signatures = .ok report →
        report.verified = true →
        (∃ report', checkAll (check launcher verifier manifest ignored) ⟨strict', .count n⟩
          collection signatures = .ok report' ∧ report'.verified = true) ∧
        startedCommands launcher verifier manifest ignored (.count n) collection signatures <+:
          startedCommands launcher verifier manifest ignored (.count m) collection signatures) ∧
      (∀ strict n report extra,
        checkAll (check launcher verifier manifest ignored) ⟨strict, .count n⟩ collection
          signatures = .ok report →
        report.verified = true →
        checkAll (check launcher verifier manifest ignored) ⟨strict, .count n⟩ collection
          (signatures ++ extra) = .ok { report with total := (signatures ++ extra).length } ∧
        startedCommands launcher verifier manifest ignored (.count n) collection
            (signatures ++ extra) =
          startedCommands launcher verifier manifest ignored (.count n) collection signatures) ∧
      (∀ n, EndAlike Report.SameNumbers
        (checkAll (check launcher verifier manifest ignored) ⟨false, .count n⟩ collection
          signatures)
        (checkAll (check launcher verifier manifest ignored) ⟨true, .count n⟩ collection
          signatures))) ∧
    (∀ required report,
      checkAll (check launcher verifier manifest ignored) ⟨true, required⟩ collection
        signatures = .ok report →
      report.verified = true →
      ∃ report', checkAll (check launcher verifier manifest ignored) ⟨false, required⟩ collection
        signatures = .ok report' ∧ report'.verified = true) := by
  refine ⟨fun hne => ⟨?_, ?_, fun n => endAlike_strict n hne⟩, fun _ _ => exists_verified_of_strict⟩
  · intro strict strict' n m report hle h hverified
    exact ⟨exists_verified_of_le hne hle h hverified, startedCommands_prefix_of_le hle signatures⟩
  · intro strict n report extra h hverified
    exact ⟨checkAll_append_of_verified hne h hverified extra,
      startedCommands_append_of_enough (le_countP_of_verified hne h hverified) extra⟩

/-- Two good signatures are required of three, strictly, and two are good. So one is enough, they
    need not be required strictly, and a malformed status behind them does not matter. -/
theorem checkAll_monotone_malformed :
    ∃ report,
      checkAll (check .echo { keyring := "ring" } "m" []) ⟨true, .count ⟨2, by decide, by decide⟩⟩
        "a.b" ["", "_ KEYEXPIRED 17", ""] = .ok report ∧
      (∃ report', checkAll (check .echo { keyring := "ring" } "m" []) .single "a.b"
        ["", "_ KEYEXPIRED 17", ""] = .ok report' ∧ report'.verified = true) ∧
      checkAll (check .echo { keyring := "ring" } "m" []) ⟨true, .count ⟨2, by decide, by decide⟩⟩
        "a.b" ["", "_ KEYEXPIRED 17", "", "_ BADSIG"] = .ok { report with total := 4 } ∧
      ∃ report', checkAll (check .echo { keyring := "ring" } "m" [])
        ⟨false, .count ⟨2, by decide, by decide⟩⟩ "a.b" ["", "_ KEYEXPIRED 17", ""] = .ok report' ∧
          report'.verified = true := by
  obtain ⟨hne, hstrict⟩ := checkAll_monotone .echo { keyring := "ring" } "m" [] "a.b"
    ["", "_ KEYEXPIRED 17", ""]
  obtain ⟨hless, hmore, -⟩ := hne (List.cons_ne_nil _ _)
  have hreport : checkAll (check .echo { keyring := "ring" } "m" [])
      ⟨true, .count ⟨2, by decide, by decide⟩⟩ "a.b" ["", "_ KEYEXPIRED 17", ""] = .ok _ := rfl
  refine ⟨_, hreport, ?_, ?_, ?_⟩
  · exact (hless true false ⟨1, by decide, by decide⟩ _ _ (by decide) hreport rfl).1
  · exact (hmore true _ _ ["_ BADSIG"] hreport rfl).1
  · exact hstrict _ _ hreport rfl

end SigVerdict.Signature
