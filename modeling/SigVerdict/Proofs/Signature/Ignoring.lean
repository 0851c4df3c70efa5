import SigVerdict.Proofs.Signature.Commands

set_option autoImplicit false

/-! # Ignoring more

Two checks of the same signatures may differ in the kinds of status that they ignore. Of a single
signature they say the same, except that a rejection may be ignored by one of them only
(`check_excuses`). Hence they take the same signatures for good and the same for faulty, so that
they reach the same ones (`verifies_check_ignored`, `fault?_check_ignored`); and a rejection that
comes to be ignored moves from the failures to the number of those that are ignored
(`Report.Excuses`). No count of good signatures depends on it (`checkAll_ignoring`). -/

namespace SigVerdict.Signature

open Gpg Status

variable {σ : Type} {judge judge' : σ → Except Fault Unit}

/-! ## One signature -/

/-- A judgement and another one that says the same, except that it may ignore a rejection. -/
inductive Excuses : Except Fault Unit → Except Fault Unit → Prop where
  | good : Excuses (.ok ()) (.ok ())
  | rejected (r : Rejection) {ignored : Bool} (more : r.ignored = true → ignored = true) :
      Excuses (.error (.rejected r)) (.error (.rejected { r with ignored }))
  | fault (fault : Fault) : Excuses (.error fault) (.error fault)

section Judges

variable (h : ∀ s, Excuses (judge s) (judge' s))

include h

theorem verifies_of_excuses : verifies judge' = verifies judge := by
  funext s
  have hs := h s
  unfold verifies
  generalize judge s = x, judge' s = y at hs
  cases hs <;> rfl

theorem fault?_of_excuses : fault? judge' = fault? judge := by
  funext s
  have hs := h s
  unfold fault?
  generalize judge s = x, judge' s = y at hs
  cases hs <;> rfl

theorem failure?_of_excuses {collection : String} {s : σ} {report : String}
    (hreport : failure? judge' collection s = some report) :
    failure? judge collection s = some report := by
  have hs := h s
  unfold failure? at hreport ⊢
  generalize judge s = x, judge' s = y at hs hreport
  cases hs with
  | good => exact hreport
  | fault fault => exact hreport
  | rejected r more =>
      dsimp only at hreport ⊢
      split at hreport
      · cases hreport
      · next hnot => rwa [if_neg (mt more hnot)]

end Judges

section Check

variable (launcher : Launcher) (verifier : Verifier) (manifest signature : String)
  {fewer more : List Kind}

theorem check_excuses (h : fewer ⊆ more) :
    Excuses (check launcher verifier manifest fewer signature)
      (check launcher verifier manifest more signature) := by
  rw [check_eq, check_eq]
  cases verifier.verify launcher manifest signature with
  | error fault => exact .fault fault
  | ok run =>
      dsimp only [verdict]
      cases collect run.items with
      | error fault => exact .fault _
      | ok outcomes =>
          cases outcomes with
          | nil =>
              dsimp only
              split
              · exact .good
              · exact .fault _
          | cons outcome rest =>
              refine .rejected (rejectionOf run fewer (outcome :: rest)) fun hall => ?_
              simp only [rejectionOf, List.all_eq_true, List.contains_iff_mem] at hall ⊢
              exact fun o ho => h (hall o ho)

/-- Which kinds are to be ignored matters, and not how often or in which order they are named. -/
theorem check_congr_ignored (h : ∀ kind, kind ∈ fewer ↔ kind ∈ more) :
    check launcher verifier manifest fewer = check launcher verifier manifest more := by
  have hcontains : ∀ kind, fewer.contains kind = more.contains kind := by
    intro kind
    rw [Bool.eq_iff_iff, List.contains_iff_mem, List.contains_iff_mem]
    exact h kind
  funext signature
  simp only [check_eq, verdict, rejectionOf, hcontains]

/-- Which signatures are good does not depend on what is ignored. -/
theorem verifies_check_ignored (ignored ignored' : List Kind) :
    verifies (check launcher verifier manifest ignored') =
      verifies (check launcher verifier manifest ignored) :=
  (verifies_of_excuses fun s => check_excuses launcher verifier manifest s
    (List.subset_append_right ignored ignored')).symm.trans
      (verifies_of_excuses fun s => check_excuses launcher verifier manifest s
        (List.subset_append_left ignored ignored'))

/-- Which signatures are faulty does not depend on what is ignored. -/
theorem fault?_check_ignored (ignored ignored' : List Kind) :
    fault? (check launcher verifier manifest ignored') =
      fault? (check launcher verifier manifest ignored) :=
  (fault?_of_excuses fun s => check_excuses launcher verifier manifest s
    (List.subset_append_right ignored ignored')).symm.trans
      (fault?_of_excuses fun s => check_excuses launcher verifier manifest s
        (List.subset_append_left ignored ignored'))

end Check

/-! ## Several signatures -/

theorem filterMap_sublist_filterMap {α β : Type} {f g : α → Option β}
    (h : ∀ x y, g x = some y → f x = some y) (xs : List α) :
    (xs.filterMap g).Sublist (xs.filterMap f) := by
  induction xs with
  | nil => exact .refl _
  | cons x xs ih =>
      cases hg : g x with
      | none =>
          rw [List.filterMap_cons_none hg]
          exact ih.trans ((List.sublist_cons_self x xs).filterMap f)
      | some y =>
          rw [List.filterMap_cons_some hg, List.filterMap_cons_some (h x y hg)]
          exact ih.cons_cons y

/-- A report and another one over the same signatures that ignores more of their rejections. -/
structure Report.Excuses (r s : Report) : Prop where
  total : r.total = s.total
  successful : r.successful = s.successful
  rejected : r.ignored + r.failures.length = s.ignored + s.failures.length
  failures : s.failures.Sublist r.failures
  verified : r.verified = true → s.verified = true

theorem Requirement.HoldsOver.excuses {requirement : Requirement} {signatures : List σ}
    (h : ∀ s, Signature.Excuses (judge s) (judge' s))
    (hover : requirement.HoldsOver judge signatures) :
    requirement.HoldsOver judge' signatures := by
  have hrequired := hover.required
  refine ⟨fun hstrict => ?_, ?_⟩
  · obtain ⟨s, hs, hok⟩ := hover.strict hstrict
    refine ⟨s, hs, ?_⟩
    rw [← verifies_iff, verifies_of_excuses h]
    exact verifies_iff.2 hok
  · cases hkind : requirement.required with
    | all =>
        rw [hkind] at hrequired
        intro s hs r hr
        have hexcuses := h s
        rw [hr] at hexcuses
        generalize hjudge : judge s = x at hexcuses
        cases hexcuses with
        | rejected r₀ more => exact more (hrequired s hs r₀ hjudge)
        | fault => exact hrequired s hs r hjudge
    | count n =>
        rw [hkind] at hrequired
        rw [Required.HoldsOver, verifies_of_excuses h]
        exact hrequired

theorem Report.excuses_of_checkAll {requirement : Requirement} {collection : String}
    {signatures : List σ} {r s : Report} (h : ∀ s, Signature.Excuses (judge s) (judge' s))
    (hr : checkAll judge requirement collection signatures = .ok r)
    (hs : checkAll judge' requirement collection signatures = .ok s) : r.Excuses s := by
  have hsuccessful : r.successful = s.successful := by
    rw [successful_of_checkAll hr, successful_of_checkAll hs, verifies_of_excuses h]
  have hverified : r.verified = true → s.verified = true := by
    rw [verified_iff_holdsOver hr, verified_iff_holdsOver hs]
    exact Requirement.HoldsOver.excuses h
  obtain ⟨hrnone, rfl⟩ := checkAll_eq_ok_iff.1 hr
  obtain ⟨hsnone, rfl⟩ := checkAll_eq_ok_iff.1 hs
  rw [verifies_of_excuses h] at hsnone hsuccessful hverified ⊢
  refine ⟨rfl, hsuccessful, ?_, ?_, hverified⟩
  · -- both tallies count the same signatures, and as many good ones among them
    have hrsum := Tally.of_sum collection hrnone
    have hssum := Tally.of_sum collection hsnone
    simp only [Report.ofTally] at hsuccessful ⊢
    omega
  · exact filterMap_sublist_filterMap (fun _ _ => failure?_of_excuses h) _

/-- **Ignoring more.** Which kinds are ignored has no influence on which commands are started, nor
    on which fault a check fails with. When more kinds are ignored, rejections move from the
    failures to those that are ignored, and what was verified still is. The verdict on a count is
    the same whatever is ignored, so that no rejection ever counts as a good signature. And it
    matters only which kinds are ignored, not how often or in which order they are named. -/
theorem checkAll_ignoring (launcher : Launcher) (verifier : Verifier) (manifest : String)
    (requirement : Requirement) (collection : String) (signatures : List String)
    (fewer more : List Kind) :
    startedCommands launcher verifier manifest fewer requirement.required collection signatures =
      startedCommands launcher verifier manifest more requirement.required collection signatures ∧
    (fewer ⊆ more → EndAlike Report.Excuses
      (checkAll (check launcher verifier manifest fewer) requirement collection signatures)
      (checkAll (check launcher verifier manifest more) requirement collection signatures)) ∧
    (∀ n, requirement.required = .count n →
      EndAlike (fun r s => r.verified = s.verified ∧ r.summary = s.summary ∧
          r.successful = s.successful)
        (checkAll (check launcher verifier manifest fewer) requirement collection signatures)
        (checkAll (check launcher verifier manifest more) requirement collection signatures)) ∧
    ((∀ kind, kind ∈ fewer ↔ kind ∈ more) →
      checkAll (check launcher verifier manifest fewer) requirement collection signatures =
        checkAll (check launcher verifier manifest more) requirement collection signatures) := by
  have hgood := verifies_check_ignored launcher verifier manifest fewer more
  have hfault := fault?_check_ignored launcher verifier manifest fewer more
  have hreached :
      requirement.required.reached (verifies (check launcher verifier manifest more)) 0 signatures =
        requirement.required.reached (verifies (check launcher verifier manifest fewer)) 0
          signatures := by
    rw [hgood]
  refine ⟨?_, fun hsubset => ?_, fun n hn => ?_, fun hsame => ?_⟩
  · rw [startedCommands_eq, startedCommands_eq, Required.checked, Required.checked, hreached,
      hfault]
  · exact endAlike_of_reached hreached hfault fun r s =>
      Report.excuses_of_checkAll fun s => check_excuses launcher verifier manifest s hsubset
  · refine endAlike_of_reached hreached hfault fun r s hr hs => ?_
    have hverified : r.verified = s.verified := by
      rw [Bool.eq_iff_iff, verified_iff_holdsOver hr, verified_iff_holdsOver hs,
        Requirement.holdsOver_count_iff hn, Requirement.holdsOver_count_iff hn, hgood]
    refine ⟨hverified, ?_, ?_⟩
    · rw [summary_of_checkAll hr, summary_of_checkAll hs, hverified, hgood]
    · rw [successful_of_checkAll hr, successful_of_checkAll hs, hgood]
  · rw [check_congr_ignored launcher verifier manifest hsame]

/-- When all signatures are required, an expired key fails them unless that is ignored. When two are
    required, ignoring it does not help. And naming a kind twice adds nothing. -/
theorem checkAll_ignoring_keyExpired :
    (∃ r s,
      checkAll (check .echo { keyring := "ring" } "m" []) ⟨true, .all⟩ "a.b"
        ["_ KEYEXPIRED 17", ""] = .ok r ∧
      checkAll (check .echo { keyring := "ring" } "m" [.keyExpired]) ⟨true, .all⟩ "a.b"
        ["_ KEYEXPIRED 17", ""] = .ok s ∧
      r.Excuses s ∧ r.verified = false ∧ s.verified = true) ∧
    (∃ r s,
      checkAll (check .echo { keyring := "ring" } "m" []) ⟨false, .count ⟨2, by decide, by decide⟩⟩
        "a.b" ["_ KEYEXPIRED 17", ""] = .ok r ∧
      checkAll (check .echo { keyring := "ring" } "m" [.keyExpired])
        ⟨false, .count ⟨2, by decide, by decide⟩⟩ "a.b" ["_ KEYEXPIRED 17", ""] = .ok s ∧
      r.verified = s.verified ∧ s.verified = false) ∧
    checkAll (check .echo { keyring := "ring" } "m" [.badSig, .keyExpired, .badSig]) .single "a.b"
        ["_ KEYEXPIRED 17", ""] =
      checkAll (check .echo { keyring := "ring" } "m" [.keyExpired, .badSig]) .single "a.b"
        ["_ KEYEXPIRED 17", ""] := by
  refine ⟨?_, ?_, ?_⟩
  · have h := (checkAll_ignoring .echo { keyring := "ring" } "m" ⟨true, .all⟩ "a.b"
      ["_ KEYEXPIRED 17", ""] [] [.keyExpired]).2.1 (List.nil_subset _)
    have hr : checkAll (check .echo { keyring := "ring" } "m" []) ⟨true, .all⟩ "a.b"
        ["_ KEYEXPIRED 17", ""] = .ok _ := rfl
    have hs : checkAll (check .echo { keyring := "ring" } "m" [.keyExpired]) ⟨true, .all⟩ "a.b"
        ["_ KEYEXPIRED 17", ""] = .ok _ := rfl
    rw [hr, hs] at h
    cases h with
    | reported hexcuses => exact ⟨_, _, hr, hs, hexcuses, rfl, rfl⟩
  · have h := (checkAll_ignoring .echo { keyring := "ring" } "m"
      ⟨false, .count ⟨2, by decide, by decide⟩⟩ "a.b" ["_ KEYEXPIRED 17", ""] []
      [.keyExpired]).2.2.1 _ rfl
    have hr : checkAll (check .echo { keyring := "ring" } "m" [])
        ⟨false, .count ⟨2, by decide, by decide⟩⟩ "a.b" ["_ KEYEXPIRED 17", ""] = .ok _ := rfl
    have hs : checkAll (check .echo { keyring := "ring" } "m" [.keyExpired])
        ⟨false, .count ⟨2, by decide, by decide⟩⟩ "a.b" ["_ KEYEXPIRED 17", ""] = .ok _ := rfl
    rw [hr, hs] at h
    cases h with
    | reported hsame => exact ⟨_, _, hr, hs, hsame.1, rfl⟩
  · exact (checkAll_ignoring .echo { keyring := "ring" } "m" .single "a.b" ["_ KEYEXPIRED 17", ""]
      [.badSig, .keyExpired, .badSig] [.keyExpired, .badSig]).2.2.2 fun kind => by
        cases kind <;> decide

end SigVerdict.Signature
