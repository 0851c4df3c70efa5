import Mathlib.Data.List.Induction
import SigVerdict.Signature.Report

set_option autoImplicit false

/-! # Surveys

A survey checks signatures from the front and stops when as many have verified as a count requires.
Which signatures it reaches can be told from the whole list (`Required.reached`): they are those up
to the one that completes the count. The first fault among them cuts the survey short
(`survey_fault`); without one, its tally counts exactly them (`survey_tally`). What a survey of a
whole list finds is thereby stated without its loop. -/

namespace SigVerdict.Signature

variable {σ : Type} (judge : σ → Except Fault Unit)

/-! ## One signature -/

/-- Whether a signature verifies on its own. -/
def verifies (s : σ) : Bool := (judge s).isOk

/-- Whether a signature is rejected on its own, and the rejection is ignored. -/
def isExcused (s : σ) : Bool :=
  match judge s with
  | .error (.rejected r) => r.ignored
  | _ => false

/-- The report of a signature that is rejected on its own, unless the rejection is ignored. -/
def failure? (collection : String) (s : σ) : Option String :=
  match judge s with
  | .error (.rejected r) => if r.ignored then none else some (r.report collection)
  | _ => none

/-- The fault that keeps a signature from being judged. -/
def fault? (s : σ) : Option Fault :=
  match judge s with
  | .ok () => none
  | .error (.rejected _) => none
  | .error fault => some fault

variable {judge}

theorem verifies_iff {s : σ} : verifies judge s = true ↔ judge s = .ok () := by
  unfold verifies
  cases judge s with
  | ok u => exact ⟨fun _ => rfl, fun _ => rfl⟩
  | error fault => exact ⟨nofun, nofun⟩

theorem fault?_of_ok {s : σ} (hs : judge s = .ok ()) : fault? judge s = none := by
  rw [fault?, hs]

theorem fault?_of_rejected {s : σ} {r : Rejection} (hs : judge s = .error (.rejected r)) :
    fault? judge s = none := by
  rw [fault?, hs]

theorem fault?_eq_none_iff {s : σ} :
    fault? judge s = none ↔ ∀ fault, judge s = .error fault → ∃ r, fault = .rejected r := by
  unfold fault?
  split
  · next hs => simp [hs]
  · next r hs => simp [hs]
  · next fault hne hs => simpa [hs] using hne

theorem fault?_eq_some_iff {s : σ} {fault : Fault} :
    fault? judge s = some fault ↔ judge s = .error fault ∧ ∀ r, fault ≠ .rejected r := by
  unfold fault?
  split
  · next hs => simp [hs]
  · next r hs =>
      rw [hs]
      refine ⟨nofun, ?_⟩
      rintro ⟨⟨⟩, hne⟩
      exact absurd rfl (hne r)
  · next other hne hs =>
      rw [hs, Option.some.injEq, Except.error.injEq]
      refine ⟨?_, And.left⟩
      rintro rfl
      exact ⟨rfl, hne⟩

theorem failure?_eq_none_iff {collection : String} {s : σ} :
    failure? judge collection s = none ↔
      ∀ r, judge s = .error (.rejected r) → r.ignored = true := by
  unfold failure?
  split
  · next r hs => simp [hs]
  · next hne => exact ⟨fun _ r hs => absurd hs (hne r), fun _ => rfl⟩

/-! ## The tally of signatures that were checked -/

/-- What is found when all of some signatures are checked. -/
def Tally.of (judge : σ → Except Fault Unit) (collection : String) (checked : List σ) : Tally where
  checked := checked.length
  successful := checked.countP (verifies judge)
  ignored := checked.countP (isExcused judge)
  failures := checked.filterMap (failure? judge collection)

theorem Tally.of_succeed {collection : String} {before : List σ} {s : σ} (hs : judge s = .ok ()) :
    (Tally.of judge collection before).succeed = Tally.of judge collection (before ++ [s]) := by
  simp [Tally.of, Tally.succeed, verifies, isExcused, failure?, hs, Except.isOk, Except.toBool]

theorem Tally.of_reject {collection : String} {before : List σ} {s : σ} {r : Rejection}
    (hs : judge s = .error (.rejected r)) :
    (Tally.of judge collection before).reject collection r =
      Tally.of judge collection (before ++ [s]) := by
  unfold Tally.reject
  split <;> rename_i hignored <;>
    simp [Tally.of, verifies, isExcused, failure?, hs, hignored, Except.isOk, Except.toBool]

/-- Each signature that is not at fault is counted once. -/
theorem Tally.of_sum (collection : String) {checked : List σ}
    (h : ∀ s ∈ checked, fault? judge s = none) :
    (Tally.of judge collection checked).successful + (Tally.of judge collection checked).ignored +
      (Tally.of judge collection checked).failures.length = checked.length := by
  induction checked using List.reverseRecOn with
  | nil => rfl
  | append_singleton before s ih =>
      have hbefore := ih fun t ht => h t (List.mem_append_left _ ht)
      have hs := h s (List.mem_append_right _ List.mem_cons_self)
      rw [List.length_append, List.length_singleton, ← hbefore]
      cases hjudge : judge s with
      | ok u =>
          rw [← Tally.of_succeed hjudge, Tally.succeed]
          dsimp only
          omega
      | error fault =>
          obtain ⟨r, rfl⟩ := fault?_eq_none_iff.1 hs fault hjudge
          rw [← Tally.of_reject hjudge, Tally.reject]
          split
          · dsimp only
            omega
          · dsimp only
            rw [List.length_append, List.length_singleton]
            omega

/-! ## The signatures that are reached -/

/-- The shortest front of a list that has so many good members, or else the whole list. -/
def upTo (good : σ → Bool) : Nat → List σ → List σ
  | 0, _ => []
  | _ + 1, [] => []
  | n + 1, s :: rest => s :: upTo good (if good s then n else n + 1) rest

/-- The signatures that are reached when `verified` of those in front of them have verified. -/
def Required.reached (good : σ → Bool) (verified : Nat) (signatures : List σ) : Required → List σ
  | .all => signatures
  | .count n => upTo good (n.value - verified) signatures

/-- A requirement for which so many signatures are not all that it takes. -/
def Required.Open (verified : Nat) : Required → Prop
  | .all => True
  | .count n => verified < n.value

theorem upTo_prefix_self (good : σ → Bool) (n : Nat) (signatures : List σ) :
    upTo good n signatures <+: signatures := by
  induction signatures generalizing n with
  | nil => cases n <;> exact List.prefix_refl _
  | cons s rest ih =>
      cases n with
      | zero => exact List.nil_prefix
      | succ n => exact List.prefix_cons_inj s |>.2 (ih _)

/-- The front has as many good members as are asked for, or all that there are. -/
theorem countP_upTo (good : σ → Bool) (n : Nat) (signatures : List σ) :
    (upTo good n signatures).countP good = min n (signatures.countP good) := by
  induction signatures generalizing n with
  | nil => cases n <;> simp [upTo]
  | cons s rest ih =>
      cases n with
      | zero => simp [upTo]
      | succ n =>
          by_cases hs : good s = true
          · rw [upTo, if_pos hs, List.countP_cons_of_pos hs, List.countP_cons_of_pos hs, ih]
            omega
          · rw [upTo, if_neg hs, List.countP_cons_of_neg hs, List.countP_cons_of_neg hs, ih]

/-- A list with fewer good members than are asked for is its own front. -/
theorem upTo_eq_self {good : σ → Bool} {n : Nat} {signatures : List σ}
    (h : signatures.countP good < n) : upTo good n signatures = signatures := by
  induction signatures generalizing n with
  | nil => cases n <;> rfl
  | cons s rest ih =>
      cases n with
      | zero => exact absurd h (Nat.not_lt_zero _)
      | succ n =>
          rw [upTo, ih]
          by_cases hs : good s = true
          · rw [List.countP_cons_of_pos hs] at h
            rw [if_pos hs]
            omega
          · rw [List.countP_cons_of_neg hs] at h
            rwa [if_neg hs]

/-- What stands behind enough good members does not matter. -/
theorem upTo_append_of_le {good : σ → Bool} {n : Nat} {signatures : List σ}
    (h : n ≤ signatures.countP good) (behind : List σ) :
    upTo good n (signatures ++ behind) = upTo good n signatures := by
  induction signatures generalizing n with
  | nil =>
      rw [Nat.le_zero.1 h]
      cases behind <;> rfl
  | cons s rest ih =>
      cases n with
      | zero => rfl
      | succ n =>
          rw [List.cons_append, upTo, upTo, ih]
          by_cases hs : good s = true
          · rw [List.countP_cons_of_pos hs] at h
            rw [if_pos hs]
            omega
          · rw [List.countP_cons_of_neg hs] at h
            rwa [if_neg hs]

/-- A signature counts towards those in front of all that stand behind it. -/
theorem add_countP_cons (good : σ → Bool) (verified : Nat) (s : σ) (behind : List σ) :
    verified + (s :: behind).countP good =
      (if good s then verified + 1 else verified) + behind.countP good := by
  rw [List.countP_cons]
  split <;> omega

namespace Required

variable {good : σ → Bool} {required : Required} {verified : Nat}

theorem reached_prefix_self {signatures : List σ} :
    required.reached good verified signatures <+: signatures := by
  cases required with
  | all => exact List.prefix_refl _
  | count n => exact upTo_prefix_self good _ signatures

theorem reached_subset {signatures : List σ} :
    required.reached good verified signatures ⊆ signatures :=
  reached_prefix_self.subset

theorem reached_nil : required.reached good verified [] = [] :=
  List.prefix_nil.1 reached_prefix_self

theorem reached_cons (h : required.Open verified) (s : σ) (rest : List σ) :
    required.reached good verified (s :: rest) =
      s :: required.reached good (if good s then verified + 1 else verified) rest := by
  cases required with
  | all => rfl
  | count n =>
      have hn : n.value - verified = n.value - (verified + 1) + 1 := by
        simp only [Open] at h
        omega
      simp only [reached]
      rw [hn, upTo]
      split
      · rfl
      · rw [← hn]

theorem reached_of_not_open (h : ¬required.Open verified) (signatures : List σ) :
    required.reached good verified signatures = [] := by
  cases required with
  | all => exact absurd trivial h
  | count n =>
      have hn : n.value - verified = 0 := Nat.sub_eq_zero_of_le (Nat.le_of_not_lt h)
      rw [reached, hn, upTo]

theorem open_zero : required.Open 0 := by
  cases required with
  | all => trivial
  | count n => exact n.pos

theorem Open.mono {m n : Nat} (h : required.Open n) (hle : m ≤ n) : required.Open m := by
  cases required with
  | all => trivial
  | count count => exact Nat.lt_of_le_of_lt hle h

/-- A survey reaches all signatures in front of which the count is still open. -/
theorem reached_append {front : List σ} (h : required.Open (verified + front.countP good))
    (behind : List σ) :
    required.reached good verified (front ++ behind) =
      front ++ required.reached good (verified + front.countP good) behind := by
  induction front generalizing verified with
  | nil => rfl
  | cons s front ih =>
      rw [add_countP_cons] at h ⊢
      rw [List.cons_append, reached_cons (h.mono ?_), ih h, List.cons_append]
      split <;> omega

/-- The test for equality in the loop finds the moment when a count is complete. -/
theorem isMetBy_succ_iff (h : required.Open verified) :
    required.isMetBy (verified + 1) = true ↔ ¬required.Open (verified + 1) := by
  cases required with
  | all => exact ⟨nofun, fun hno => absurd trivial hno⟩
  | count n =>
      rw [isMetBy, beq_iff_eq]
      simp only [Open] at h ⊢
      omega

/-- What holds of all signatures that are reached holds of each signature in front of which the
    count is still open. -/
theorem forall_reached_iff {P : σ → Prop} {signatures : List σ} :
    (∀ s ∈ required.reached good verified signatures, P s) ↔
      ∀ before s after, signatures = before ++ s :: after →
        required.Open (verified + before.countP good) → P s := by
  induction signatures generalizing verified with
  | nil =>
      rw [reached_nil]
      exact ⟨fun _ before s after h => by simp at h, fun _ s hs => nomatch hs⟩
  | cons first rest ih =>
      by_cases hopen : required.Open verified
      · rw [reached_cons hopen, List.forall_mem_cons, ih]
        constructor
        · rintro ⟨hfirst, hrest⟩ before s after heq ho
          cases before with
          | nil =>
              cases heq
              exact hfirst
          | cons first' before =>
              cases heq
              exact hrest before s after rfl (add_countP_cons good verified _ before ▸ ho)
        · intro h
          refine ⟨h [] first rest rfl hopen, fun before s after hrest ho => ?_⟩
          exact h (first :: before) s after (by rw [hrest, List.cons_append])
            ((add_countP_cons good verified _ before).symm ▸ ho)
      · -- once the count is complete, it stays so: nothing more is reached
        rw [reached_of_not_open hopen]
        exact ⟨fun _ _ _ _ _ ho => absurd (ho.mono (Nat.le_add_right _ _)) hopen,
          fun _ s hs => nomatch hs⟩

end Required

/-! ## The loop -/

/-- From the tally of the signatures in front, a survey finds the first fault among the signatures
    that it reaches, and if there is none, it counts them to those in front. -/
theorem surveyFrom_spec {required : Required} (collection : String) (before rest : List σ)
    (hopen : required.Open (before.countP (verifies judge))) :
    (surveyFrom judge required collection (.of judge collection before) rest).fault =
      (required.reached (verifies judge) (before.countP (verifies judge)) rest).findSome?
        (fault? judge) ∧
    ((required.reached (verifies judge) (before.countP (verifies judge)) rest).findSome?
        (fault? judge) = none →
      (surveyFrom judge required collection (.of judge collection before) rest).tally =
        .of judge collection
          (before ++ required.reached (verifies judge) (before.countP (verifies judge)) rest)) := by
  induction rest generalizing before with
  | nil =>
      rw [Required.reached_nil, surveyFrom_nil, List.append_nil]
      exact ⟨rfl, fun _ => rfl⟩
  | cons s rest ih =>
      have hcount : (before ++ [s]).countP (verifies judge) =
          if verifies judge s then before.countP (verifies judge) + 1
          else before.countP (verifies judge) := by
        rw [List.countP_append, List.countP_singleton]
        split <;> rfl
      rw [Required.reached_cons hopen, ← hcount, List.findSome?_cons, surveyFrom_cons]
      split
      · next hs =>
          rw [if_pos (verifies_iff.2 hs)] at hcount
          rw [fault?_of_ok hs, Tally.of_succeed hs]
          have hsuccessful : (Tally.of judge collection (before ++ [s])).successful =
              before.countP (verifies judge) + 1 := hcount
          rw [hsuccessful]
          split
          · next hmet =>
              rw [hcount, Required.reached_of_not_open ((Required.isMetBy_succ_iff hopen).1 hmet)]
              exact ⟨rfl, fun _ => rfl⟩
          · next hmet =>
              -- the loop tests for equality, so it matters that the count was open before
              have hstill := Classical.not_not.1 (mt (Required.isMetBy_succ_iff hopen).2 hmet)
              have hnext := ih (before ++ [s]) (hcount ▸ hstill)
              rw [List.append_assoc] at hnext
              exact hnext
      · next r hs =>
          have hbad : ¬verifies judge s = true := by
            intro h
            cases hs.symm.trans (verifies_iff.1 h)
          rw [if_neg hbad] at hcount
          rw [fault?_of_rejected hs, Tally.of_reject hs]
          have hnext := ih (before ++ [s]) (hcount ▸ hopen)
          rw [List.append_assoc] at hnext
          exact hnext
      · next fault hne hs =>
          rw [fault?_eq_some_iff.2 ⟨hs, hne⟩]
          exact ⟨rfl, fun h => absurd h (Option.some_ne_none fault)⟩

variable (judge) in
/-- A survey of a whole list ends with the first fault among the signatures that it reaches. -/
theorem survey_fault (required : Required) (collection : String) (signatures : List σ) :
    (survey judge required collection signatures).fault =
      (required.reached (verifies judge) 0 signatures).findSome? (fault? judge) :=
  (surveyFrom_spec collection [] signatures Required.open_zero).1

/-- A survey of a whole list that is not cut short counts the signatures that it reaches. -/
theorem survey_tally (required : Required) (collection : String) (signatures : List σ)
    (h : (survey judge required collection signatures).fault = none) :
    (survey judge required collection signatures).tally =
      .of judge collection (required.reached (verifies judge) 0 signatures) := by
  rw [survey_fault] at h
  exact (surveyFrom_spec collection [] signatures Required.open_zero).2 h

end SigVerdict.Signature
