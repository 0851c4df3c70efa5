import SigVerdict.Proofs.Gpg.Run
import SigVerdict.Proofs.Signature.Verdict
import SigVerdict.Signature.Check

set_option autoImplicit false

/-! # The order of signatures

A check reaches other signatures when they stand in another order, and so it may report other
failures. Its verdict remains the same, for it can be told from the whole list: whether the
requirement holds over the list (`Requirement.holdsOver_perm`), and how many members of the list are
good (`successful_of_checkAll`), do not depend on the order. A check that does not stop early
reports the same failures, in another order (`checkAll_perm`). -/

namespace SigVerdict.Signature

variable {σ : Type} {judge : σ → Except Fault Unit} {requirement : Requirement}
  {collection : String} {signatures others : List σ}

theorem Requirement.holdsOver_perm (h : signatures.Perm others) :
    requirement.HoldsOver judge signatures ↔ requirement.HoldsOver judge others := by
  have hstrict : (∃ s ∈ signatures, judge s = .ok ()) ↔ ∃ s ∈ others, judge s = .ok () :=
    exists_congr fun s => and_congr_left fun _ => h.mem_iff
  have hrequired : requirement.required.HoldsOver judge signatures ↔
      requirement.required.HoldsOver judge others := by
    cases requirement.required with
    | all => exact forall_congr' fun s => imp_congr_left h.mem_iff
    | count n =>
        simp only [Required.HoldsOver]
        rw [h.countP_eq, ← List.length_eq_zero_iff, h.length_eq, List.length_eq_zero_iff]
  exact ⟨fun hs => ⟨fun hplus => hstrict.1 (hs.strict hplus), hrequired.1 hs.required⟩,
    fun ho => ⟨fun hplus => hstrict.2 (ho.strict hplus), hrequired.2 ho.required⟩⟩

/-- A list whose signatures are all good or rejected has a report. -/
theorem exists_report (requirement : Requirement) (collection : String)
    (h : ∀ s ∈ signatures, fault? judge s = none) :
    ∃ report, checkAll judge requirement collection signatures = .ok report :=
  ⟨_, checkAll_eq_ok_iff.2 ⟨fun s hs => h s (Required.reached_subset hs), rfl⟩⟩

/-- Two reports have the same verdict and the same reason for it, from as many good signatures among
    as many. -/
structure Report.SameVerdict (r s : Report) : Prop where
  verified : r.verified = s.verified
  successful : r.successful = s.successful
  total : r.total = s.total
  summary : r.summary = s.summary

theorem sameVerdict_of_perm (h : signatures.Perm others) {r s : Report}
    (hr : checkAll judge requirement collection signatures = .ok r)
    (hs : checkAll judge requirement collection others = .ok s) : r.SameVerdict s := by
  have hverified : r.verified = s.verified := by
    rw [Bool.eq_iff_iff, verified_iff_holdsOver hr, verified_iff_holdsOver hs]
    exact Requirement.holdsOver_perm h
  refine ⟨hverified, ?_, ?_, ?_⟩
  · rw [successful_of_checkAll hr, successful_of_checkAll hs, h.countP_eq]
  · rw [total_of_checkAll hr, total_of_checkAll hs, h.length_eq]
  · rw [summary_of_checkAll hr, summary_of_checkAll hs, hverified, h.countP_eq]

/-- **The order of signatures does not matter.** When every signature of a list is good or rejected,
    checking the list in any order gives reports with the same verdict, and a count is the number of
    good signatures or the required number, whichever is less. When all signatures are required,
    the same rejections are ignored and the same failures are reported, in another order. -/
theorem checkAll_perm (launcher : Gpg.Launcher) (verifier : Gpg.Verifier) (manifest : String)
    (ignored : List Status.Kind) (requirement : Requirement) (collection : String)
    (signatures others : List String) (hperm : signatures.Perm others)
    (hjudged : ∀ s ∈ signatures, ∀ fault,
      check launcher verifier manifest ignored s = .error fault → ∃ r, fault = .rejected r) :
    ∃ r s,
      checkAll (check launcher verifier manifest ignored) requirement collection signatures =
        .ok r ∧
      checkAll (check launcher verifier manifest ignored) requirement collection others = .ok s ∧
      r.SameVerdict s ∧
      (∀ n, requirement.required = .count n → r.successful =
        min n.value (signatures.countP (verifies (check launcher verifier manifest ignored)))) ∧
      (requirement.required = .all → r.ignored = s.ignored ∧ r.failures.Perm s.failures) := by
  have hnone : ∀ s ∈ signatures, fault? (check launcher verifier manifest ignored) s = none :=
    fun s hs => fault?_eq_none_iff.2 (hjudged s hs)
  obtain ⟨r, hr⟩ := exists_report requirement collection hnone
  obtain ⟨s, hs⟩ := exists_report requirement collection fun s hs => hnone s (hperm.mem_iff.2 hs)
  refine ⟨r, s, hr, hs, sameVerdict_of_perm hperm hr hs, ?_, ?_⟩
  · intro n hn
    rw [successful_of_checkAll hr, hn, Required.counted]
  · intro hall
    rw [(checkAll_eq_ok_iff.1 hr).2, (checkAll_eq_ok_iff.1 hs).2, hall]
    exact ⟨hperm.countP_eq _, hperm.filterMap _⟩

/-- One good signature is required of three. Only if the expired key comes first, its failure is
    reported. -/
theorem checkAll_perm_oneOfThree :
    ∃ r s,
      checkAll (check .echo { keyring := "ring" } "m" []) .single "a.b"
        ["", "_ KEYEXPIRED 17", ""] = .ok r ∧
      checkAll (check .echo { keyring := "ring" } "m" []) .single "a.b"
        ["_ KEYEXPIRED 17", "", ""] = .ok s ∧
      r.SameVerdict s ∧ r.successful = 1 ∧ r.failures.length = 0 ∧ s.failures.length = 1 := by
  have hgood : check .echo { keyring := "ring" } "m" [] "" = .ok () := rfl
  have hbad : check .echo { keyring := "ring" } "m" [] "_ KEYEXPIRED 17" =
      .error (.rejected ⟨["The key has expired."], "_ KEYEXPIRED 17", 0, false⟩) := rfl
  obtain ⟨r, s, hr, hs, hsame, hcount, -⟩ := checkAll_perm .echo { keyring := "ring" } "m" []
    .single "a.b" ["", "_ KEYEXPIRED 17", ""] ["_ KEYEXPIRED 17", "", ""] (.swap _ _ _) (by
      intro s hs fault hfault
      simp only [List.mem_cons, List.not_mem_nil, or_false] at hs
      rcases hs with rfl | rfl | rfl
      · cases hgood.symm.trans hfault
      · exact ⟨_, (Except.error.inj (hbad.symm.trans hfault)).symm⟩
      · cases hgood.symm.trans hfault)
  refine ⟨r, s, hr, hs, hsame, hcount _ rfl, ?_, ?_⟩
  · cases hr
    rfl
  · cases hs
    rfl

end SigVerdict.Signature
