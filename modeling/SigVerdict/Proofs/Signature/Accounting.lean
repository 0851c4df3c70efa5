import Mathlib.Data.List.Forall2
import SigVerdict.Proofs.Signature.Commands

set_option autoImplicit false

/-! # The accounts of a report

Every signature that is checked has one standing: it is verified, or its rejection is excused, or it
has failed (`existsUnique_standing`). Written down one below the other, these standings are a ledger
of the check. A report is drawn from it (`Report.Books`): its three numbers count the entries of the
three sorts, so that they add up to the number of signatures that were checked
(`Report.Books.sum`). That number falls short of the number of all signatures only when a count is
complete, and then the last entry is the one that completed it (`Required.reached_short`). -/

namespace SigVerdict.Signature

open Gpg

variable {σ : Type}

/-! ## Standings -/

/-- What becomes of a signature that is checked. -/
inductive Standing where
  | verified
  | excused
  | failed (report : String)
  deriving DecidableEq

/-- The report of a failure. -/
def Standing.failure? : Standing → Option String
  | .failed report => some report
  | _ => none

/-- The standing that a signature of a collection has before a judge. -/
inductive StandsAs (judge : σ → Except Fault Unit) (collection : String) (s : σ) :
    Standing → Prop where
  | verified (h : judge s = .ok ()) : StandsAs judge collection s .verified
  | excused {r : Rejection} (h : judge s = .error (.rejected r)) (hr : r.ignored = true) :
      StandsAs judge collection s .excused
  | failed {r : Rejection} (h : judge s = .error (.rejected r)) (hr : r.ignored = false) :
      StandsAs judge collection s (.failed (r.report collection))

variable {judge : σ → Except Fault Unit} {collection : String} {s : σ}

theorem StandsAs.unique {a b : Standing} (ha : StandsAs judge collection s a)
    (hb : StandsAs judge collection s b) : a = b := by
  cases ha with
  | verified h =>
      cases hb with
      | verified => rfl
      | excused h' => cases h.symm.trans h'
      | failed h' => cases h.symm.trans h'
  | excused h hr =>
      cases hb with
      | verified h' => cases h.symm.trans h'
      | excused => rfl
      | failed h' hr' =>
          cases h.symm.trans h'
          cases hr.symm.trans hr'
  | failed h hr =>
      cases hb with
      | verified h' => cases h.symm.trans h'
      | excused h' hr' =>
          cases h.symm.trans h'
          cases hr.symm.trans hr'
      | failed h' =>
          cases h.symm.trans h'
          rfl

theorem StandsAs.verifies_eq {a : Standing} (h : StandsAs judge collection s a) :
    verifies judge s = (a == .verified) := by
  cases h with
  | verified h => exact verifies_iff.2 h
  | excused h | failed h => rw [verifies, h]; rfl

theorem StandsAs.isExcused_eq {a : Standing} (h : StandsAs judge collection s a) :
    isExcused judge s = (a == .excused) := by
  cases h with
  | verified h => rw [isExcused, h]; rfl
  | excused h hr | failed h hr => rw [isExcused, h]; exact hr

theorem StandsAs.failure?_eq {a : Standing} (h : StandsAs judge collection s a) :
    failure? judge collection s = a.failure? := by
  cases h with
  | verified h => rw [failure?, h]; rfl
  | excused h hr => simp only [failure?, h, hr]; rfl
  | failed h hr => simp only [failure?, h, hr]; rfl

/-- A signature that is not at fault has one standing, and no other. -/
theorem existsUnique_standing (collection : String) (hs : fault? judge s = none) :
    ∃! a, StandsAs judge collection s a := by
  have hsome : ∃ a, StandsAs judge collection s a := by
    cases hjudge : judge s with
    | ok u => exact ⟨_, .verified hjudge⟩
    | error fault =>
        obtain ⟨r, rfl⟩ := fault?_eq_none_iff.1 hs fault hjudge
        cases hr : r.ignored with
        | true => exact ⟨_, .excused hjudge hr⟩
        | false => exact ⟨_, .failed hjudge hr⟩
  obtain ⟨a, ha⟩ := hsome
  exact ⟨a, ha, fun b hb => hb.unique ha⟩

/-! ## Ledgers -/

/-- A report books the signatures that were checked: the ledger has one entry for each of them, in
    order, and the report counts each entry in the place where it belongs. -/
structure Report.Books (judge : σ → Except Fault Unit) (r : Report) (checked : List σ)
    (ledger : List Standing) : Prop where
  entries : List.Forall₂ (StandsAs judge r.collection) checked ledger
  successful : r.successful = ledger.count .verified
  ignored : r.ignored = ledger.count .excused
  failures : r.failures = ledger.filterMap Standing.failure?

/-- The entries of the three sorts are all entries. -/
theorem count_ledger (ledger : List Standing) :
    ledger.count .verified + ledger.count .excused + (ledger.filterMap Standing.failure?).length =
      ledger.length := by
  induction ledger with
  | nil => rfl
  | cons a ledger ih =>
      rw [List.length_cons, ← ih]
      cases a <;> simp [List.filterMap_cons, Standing.failure?] <;> omega

theorem Report.Books.sum {r : Report} {checked : List σ} {ledger : List Standing}
    (h : r.Books judge checked ledger) :
    r.successful + r.ignored + r.failures.length = checked.length := by
  rw [h.successful, h.ignored, h.failures, count_ledger, h.entries.length_eq]

/-- The tally of signatures that are not at fault is drawn from their ledger. -/
theorem exists_ledger {checked : List σ} (collection : String)
    (hnone : ∀ s ∈ checked, fault? judge s = none) (requirement : Requirement) (total : Nat) :
    ∃ ledger, (Report.ofTally collection requirement total (.of judge collection checked)).Books
      judge checked ledger := by
  induction checked with
  | nil => exact ⟨[], .nil, rfl, rfl, rfl⟩
  | cons s rest ih =>
      rw [List.forall_mem_cons] at hnone
      obtain ⟨ledger, hentries, hsuccessful, hignored, hfailures⟩ := ih hnone.2
      obtain ⟨a, ha, -⟩ := existsUnique_standing collection hnone.1
      simp only [Report.ofTally, Tally.of] at hsuccessful hignored hfailures
      refine ⟨a :: ledger, .cons ha hentries, ?_, ?_, ?_⟩
      · rw [List.count_cons, ← hsuccessful, ← ha.verifies_eq, ← List.countP_cons]
        rfl
      · rw [List.count_cons, ← hignored, ← ha.isExcused_eq, ← List.countP_cons]
        rfl
      · rw [List.filterMap_cons, ← hfailures, ← ha.failure?_eq, ← List.filterMap_cons]
        rfl

/-! ## Checks that stop early -/

/-- The front that has enough good members ends with a good one. -/
theorem exists_upTo_eq_concat {good : σ → Bool} {n : Nat} {signatures : List σ}
    (hn : 0 < n) (henough : n ≤ signatures.countP good) :
    ∃ front s, upTo good n signatures = front ++ [s] ∧ good s = true := by
  induction signatures generalizing n with
  | nil => exact absurd (Nat.lt_of_lt_of_le hn henough) (Nat.lt_irrefl 0)
  | cons s rest ih =>
      obtain ⟨n, rfl⟩ := Nat.exists_eq_add_one_of_ne_zero hn.ne'
      by_cases hs : good s = true
      · rw [List.countP_cons_of_pos hs] at henough
        rw [upTo, if_pos hs]
        rcases Nat.eq_zero_or_pos n with rfl | hpos
        · exact ⟨[], s, by rw [upTo]; rfl, hs⟩
        · obtain ⟨front, t, hfront, ht⟩ := ih hpos (Nat.le_of_succ_le_succ henough)
          exact ⟨s :: front, t, by rw [hfront, List.cons_append], ht⟩
      · rw [List.countP_cons_of_neg hs] at henough
        rw [upTo, if_neg hs]
        obtain ⟨front, t, hfront, ht⟩ := ih hn henough
        exact ⟨s :: front, t, by rw [hfront, List.cons_append], ht⟩

/-- Not all signatures are reached only when a count is complete, and then the last one that is
    reached is good. -/
theorem Required.reached_short {good : σ → Bool} {required : Required} {signatures : List σ}
    (h : (required.reached good 0 signatures).length < signatures.length) :
    ∃ n, required = .count n ∧ (required.reached good 0 signatures).countP good = n.value ∧
      ∃ front s, required.reached good 0 signatures = front ++ [s] ∧ good s = true := by
  cases required with
  | all => exact absurd h (Nat.lt_irrefl _)
  | count n =>
      have henough : n.value ≤ signatures.countP good := by
        by_contra hfew
        rw [reached, Nat.sub_zero, upTo_eq_self (Nat.lt_of_not_le hfew)] at h
        exact Nat.lt_irrefl _ h
      refine ⟨n, rfl, ?_, exists_upTo_eq_concat n.pos henough⟩
      rw [countP_reached, counted, Nat.min_eq_left henough]

/-! ## The accounts -/

/-- The command over a signature that is not at fault has started. -/
theorem starts_of_fault?_eq_none {launcher : Launcher} {verifier : Verifier} {manifest : String}
    {ignored : List Status.Kind} {signature : String}
    (h : fault? (check launcher verifier manifest ignored) signature = none) :
    launcher.starts (verifier.command launcher.descriptor manifest signature) = true := by
  rcases verifier.ends_or_verify_fault launcher manifest signature with
    ⟨status, exit, took, hstart, -⟩ | ⟨fault, hverify, hfault⟩
  · rw [Launcher.starts, hstart]
  · have hcheck : check launcher verifier manifest ignored signature = .error fault := by
      rw [check_eq, hverify]
    rw [fault?_eq_some_iff.2 ⟨hcheck, hfault⟩] at h
    cases h

/-- **The accounts of a report.** Whenever a check gives a report, GnuPG was run once over each
    signature of a front of the list, and each of these has one standing. The report books them, so
    that its numbers add up to theirs. They are not all signatures only when a count is complete,
    and then the last of them is good. And a count is never exceeded. -/
theorem checkAll_accounts (launcher : Launcher) (verifier : Verifier) (manifest : String)
    (ignored : List Status.Kind) (requirement : Requirement) (collection : String)
    (signatures : List String) (report : Report)
    (h : checkAll (check launcher verifier manifest ignored) requirement collection signatures =
      .ok report) :
    ∃ checked ledger,
      checked <+: signatures ∧
      Settles launcher verifier manifest ignored requirement collection signatures (.ok report)
        checked ∧
      (∀ s ∈ checked, ∃! a, StandsAs (check launcher verifier manifest ignored) collection s a) ∧
      report.Books (check launcher verifier manifest ignored) checked ledger ∧
      report.successful + report.ignored + report.failures.length = checked.length ∧
      report.collection = collection ∧
      report.total = signatures.length ∧
      checked.length ≤ report.total ∧
      (checked.length < report.total →
        ∃ n, requirement.required = .count n ∧ report.successful = n.value ∧
          ∃ front s, checked = front ++ [s] ∧
            check launcher verifier manifest ignored s = .ok ()) ∧
      ∀ n, requirement.required = .count n → report.successful ≤ n.value := by
  have hprefix : requirement.required.reached
      (verifies (check launcher verifier manifest ignored)) 0 signatures <+: signatures :=
    Required.reached_prefix_self
  have htotal := total_of_checkAll h
  have hsuccessful := successful_of_checkAll h
  obtain ⟨hnone, hreport⟩ := checkAll_eq_ok_iff.1 h
  obtain ⟨ledger, hledger⟩ := exists_ledger collection hnone requirement
    signatures.length
  rw [← hreport] at hledger
  refine ⟨_, ledger, hprefix, ?_, fun s hs => existsUnique_standing _ (hnone s hs), hledger,
    hledger.sum, ?_, htotal, ?_, ?_, ?_⟩
  · exact settles_of_checked h (Required.checked_eq_reached hnone) fun s hs =>
      starts_of_fault?_eq_none (hnone s hs)
  · rw [hreport]
    rfl
  · rw [htotal]
    exact hprefix.length_le
  · intro hshort
    rw [htotal] at hshort
    obtain ⟨n, hn, hcount, front, s, hfront, hs⟩ := Required.reached_short hshort
    refine ⟨n, hn, ?_, front, s, hfront, verifies_iff.1 hs⟩
    rw [hreport]
    exact hcount
  · intro n hn
    rw [hsuccessful, hn]
    exact Nat.min_le_left _ _

/-- Two good signatures are required and expired keys are ignored. Of five signatures the first is
    ignored, the second fails and the next two are good, so that the fifth, whose status is
    malformed, is not checked. -/
theorem checkAll_accounts_fourOfFive :
    ∃ report checked,
      checkAll (check .echo { keyring := "ring" } "m" [.keyExpired])
        ⟨false, .count ⟨2, by decide, by decide⟩⟩ "a.b"
        ["_ KEYEXPIRED 17", "_ NODATA 4", "", "", "_ BADSIG"] = .ok report ∧
      Settles .echo { keyring := "ring" } "m" [.keyExpired]
        ⟨false, .count ⟨2, by decide, by decide⟩⟩ "a.b"
        ["_ KEYEXPIRED 17", "_ NODATA 4", "", "", "_ BADSIG"] (.ok report) checked ∧
      checked.length = 4 ∧ report.successful = 2 ∧ report.ignored = 1 ∧
      report.failures.length = 1 ∧
      ∃ front s, checked = front ++ [s] ∧
        check .echo { keyring := "ring" } "m" [.keyExpired] s = .ok () := by
  have hreport : checkAll (check .echo { keyring := "ring" } "m" [.keyExpired])
      ⟨false, .count ⟨2, by decide, by decide⟩⟩ "a.b"
      ["_ KEYEXPIRED 17", "_ NODATA 4", "", "", "_ BADSIG"] = .ok _ := rfl
  obtain ⟨checked, ledger, -, hsettles, -, -, hsum, -, -, -, hlast, -⟩ := checkAll_accounts .echo
    { keyring := "ring" } "m" [.keyExpired] ⟨false, .count ⟨2, by decide, by decide⟩⟩ "a.b"
    ["_ KEYEXPIRED 17", "_ NODATA 4", "", "", "_ BADSIG"] _ hreport
  have hlength : checked.length = 4 := hsum.symm
  obtain ⟨n, -, -, hgood⟩ := hlast (by rw [hlength]; decide)
  exact ⟨_, checked, hreport, hsettles, hlength, rfl, rfl, rfl, hgood⟩

end SigVerdict.Signature
