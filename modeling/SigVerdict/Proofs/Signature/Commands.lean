import Mathlib.Order.Bounds.Basic
import Mathlib.Tactic.ByContra
import SigVerdict.Proofs.Gpg.Run
import SigVerdict.Proofs.Signature.Verdict
import SigVerdict.Signature.Check

set_option autoImplicit false

/-! # The commands that a survey starts

A survey says what was found, and not what was done to find it. To tell which commands are started,
the survey is run with a launcher that writes down each command that starts (`startLogged`). It then
finds the same, and what is written down are the commands over the signatures that are checked
(`run_surveyM_checkM`): those that are reached, up to the first one at fault (`Required.checked`).

So a check with a requirement of all signatures runs GnuPG over every signature, one with a count
runs it up to the signature that completes the count, and each of them stops at a fault
(`checkAll_startedCommands`). -/

namespace SigVerdict.Gpg

/-- Whether a command starts. Without a status pipe none is started. -/
def Launcher.starts (launcher : Launcher) (command : Command) : Bool :=
  match launcher.start command with
  | .notStarted _ => false
  | .broken .createPipe _ => false
  | _ => true

/-- Start a command, and write it down if it starts. -/
def Launcher.startLogged (launcher : Launcher) (command : Command) :
    StateM (List Command) Attempt := do
  if launcher.starts command then modify (· ++ [command])
  return launcher.start command

theorem Launcher.run_startLogged (launcher : Launcher) (command : Command) (log : List Command) :
    (launcher.startLogged command).run log =
      (launcher.start command, log ++ [command].filter launcher.starts) := by
  unfold startLogged
  by_cases h : launcher.starts command = true
  · rw [if_pos h, List.filter_cons_of_pos h]
    rfl
  · rw [if_neg h, List.filter_cons_of_neg h, List.filter_nil, List.append_nil]
    rfl

theorem Verifier.not_starts_of_verify_spawn {v : Verifier} {launcher : Launcher}
    {manifest signature line : String} {cause : SystemFault}
    (h : v.verify launcher manifest signature = .error (.spawn line cause)) :
    launcher.starts (v.command launcher.descriptor manifest signature) = false := by
  unfold Launcher.starts
  rw [verify_eq] at h
  cases hstart : launcher.start (v.command launcher.descriptor manifest signature) with
  | notStarted cause => rfl
  | broken stage cause =>
      rw [hstart, conclude] at h
      cases h
  | ended took status exit =>
      rw [hstart, conclude] at h
      split at h
      · split at h <;> cases h
      · cases h

/-- A run whose command is written down gives the same, and has started its command and no other. -/
theorem Verifier.run_verifyM (v : Verifier) (launcher : Launcher) (manifest signature : String)
    (log : List Command) :
    (v.verifyM launcher.descriptor launcher.startLogged manifest signature).run log =
      (v.verify launcher manifest signature,
        log ++ [v.command launcher.descriptor manifest signature].filter launcher.starts) := by
  rw [verifyM, StateT.run_bind, launcher.run_startLogged, verify_eq]
  rfl

end SigVerdict.Gpg

namespace SigVerdict.Signature

open Gpg

variable {σ : Type}

/-! ## The signatures that are checked -/

/-- The front of a list up to the first member that has a property, or else the whole list. -/
def throughFirst (p : σ → Bool) : List σ → List σ
  | [] => []
  | s :: rest => if p s then [s] else s :: throughFirst p rest

/-- The signatures that are checked when `verified` of those in front of them have verified: those
    that are reached, up to the first one at fault. -/
def Required.checked (judge : σ → Except Fault Unit) (verified : Nat) (signatures : List σ)
    (required : Required) : List σ :=
  throughFirst (fun s => (fault? judge s).isSome)
    (required.reached (verifies judge) verified signatures)

theorem throughFirst_eq_self {p : σ → Bool} {signatures : List σ}
    (h : ∀ s ∈ signatures, p s = false) : throughFirst p signatures = signatures := by
  induction signatures with
  | nil => rfl
  | cons s rest ih =>
      rw [List.forall_mem_cons] at h
      rw [throughFirst, h.1, ih h.2]
      rfl

theorem throughFirst_append_cons {p : σ → Bool} {front : List σ} {s : σ}
    (hfront : ∀ t ∈ front, p t = false) (hs : p s = true) (behind : List σ) :
    throughFirst p (front ++ s :: behind) = front ++ [s] := by
  induction front with
  | nil => rw [List.nil_append, throughFirst, if_pos hs, List.nil_append]
  | cons t front ih =>
      rw [List.forall_mem_cons] at hfront
      rw [List.cons_append, throughFirst, hfront.1, ih hfront.2]
      rfl

theorem throughFirst_mono (p : σ → Bool) {xs ys : List σ} (h : xs <+: ys) :
    throughFirst p xs <+: throughFirst p ys := by
  obtain ⟨behind, rfl⟩ := h
  induction xs with
  | nil => exact List.nil_prefix
  | cons s rest ih =>
      rw [List.cons_append, throughFirst, throughFirst]
      split
      · exact List.prefix_refl _
      · exact (List.prefix_cons_inj s).2 ih

namespace Required

variable {judge : σ → Except Fault Unit} {required : Required} {signatures : List σ}

theorem checked_eq_reached
    (h : ∀ s ∈ required.reached (verifies judge) 0 signatures, fault? judge s = none) :
    required.checked judge 0 signatures = required.reached (verifies judge) 0 signatures :=
  throughFirst_eq_self fun s hs => by rw [h s hs, Option.isSome_none]

theorem checked_of_reached_append {front behind : List σ} {s : σ} {fault : Fault}
    (hreached : required.reached (verifies judge) 0 signatures = front ++ s :: behind)
    (hfront : ∀ t ∈ front, fault? judge t = none) (hs : fault? judge s = some fault) :
    required.checked judge 0 signatures = front ++ [s] := by
  rw [checked, hreached]
  refine throughFirst_append_cons (fun t ht => ?_) ?_ behind
  · rw [hfront t ht, Option.isSome_none]
  · rw [hs, Option.isSome_some]

theorem checked_nil (verified : Nat) : required.checked judge verified [] = [] := by
  rw [checked, reached_nil, throughFirst]

section Cons

variable {verified : Nat} (hopen : required.Open verified) {s : σ}

include hopen

theorem checked_cons_of_ok (hs : judge s = .ok ()) (rest : List σ) :
    required.checked judge verified (s :: rest) =
      s :: required.checked judge (verified + 1) rest := by
  rw [checked, reached_cons hopen, throughFirst, fault?_of_ok hs, if_pos (verifies_iff.2 hs)]
  rfl

theorem checked_cons_of_rejected {r : Rejection} (hs : judge s = .error (.rejected r))
    (rest : List σ) :
    required.checked judge verified (s :: rest) = s :: required.checked judge verified rest := by
  have hbad : ¬verifies judge s = true := by
    intro h
    cases hs.symm.trans (verifies_iff.1 h)
  rw [checked, reached_cons hopen, throughFirst, fault?_of_rejected hs, if_neg hbad]
  rfl

theorem checked_cons_of_fault {fault : Fault} (hs : fault? judge s = some fault)
    (rest : List σ) : required.checked judge verified (s :: rest) = [s] := by
  rw [checked, reached_cons hopen, throughFirst, hs]
  rfl

end Cons

theorem checked_of_not_open {verified : Nat} (h : ¬required.Open verified) (rest : List σ) :
    required.checked judge verified rest = [] := by
  rw [checked, reached_of_not_open h, throughFirst]

end Required

/-! ## The loop with a judge that writes a log -/

@[simp] theorem Tally.successful_reject (t : Tally) (collection : String) (r : Rejection) :
    (t.reject collection r).successful = t.successful := by
  unfold reject
  split <;> rfl

@[simp] theorem Tally.checked_reject (t : Tally) (collection : String) (r : Rejection) :
    (t.reject collection r).checked = t.checked + 1 := by
  unfold reject
  split <;> rfl

/-- A judge that writes entries into a log while it judges does not change what is found, and the
    log has the entries of the signatures that are checked, in order. -/
theorem run_surveyFromM {ε : Type} {judge : σ → Except Fault Unit}
    {judgeM : σ → StateM (List ε) (Except Fault Unit)} {entries : σ → List ε}
    (hjudge : ∀ s log, (judgeM s).run log = (judge s, log ++ entries s)) {required : Required}
    (collection : String) (t : Tally) (hopen : required.Open t.successful) (signatures : List σ)
    (log : List ε) :
    (surveyFromM judgeM required collection t signatures).run log =
      (surveyFrom judge required collection t signatures,
        log ++ (required.checked judge t.successful signatures).flatMap entries) := by
  induction signatures generalizing t log with
  | nil =>
      rw [Required.checked_nil, List.flatMap_nil, List.append_nil]
      rfl
  | cons s rest ih =>
      rw [surveyFromM, StateT.run_bind, hjudge, surveyFrom_cons]
      simp only [bind]
      cases hs : judge s with
      | ok u =>
          rw [Required.checked_cons_of_ok hopen hs, List.flatMap_cons, ← List.append_assoc]
          dsimp only
          split
          · next hmet =>
              rw [Required.checked_of_not_open ((Required.isMetBy_succ_iff hopen).1 hmet),
                List.flatMap_nil, List.append_nil]
              rfl
          · next hmet =>
              have hstill := Classical.not_not.1 (mt (Required.isMetBy_succ_iff hopen).2 hmet)
              exact ih t.succeed hstill _
      | error fault =>
          cases fault with
          | rejected r =>
              rw [Required.checked_cons_of_rejected hopen hs, List.flatMap_cons,
                ← List.append_assoc, ← t.successful_reject collection r]
              exact ih _ ((t.successful_reject collection r).symm ▸ hopen) _
          | _ =>
              rw [Required.checked_cons_of_fault hopen (by rw [fault?, hs]), List.flatMap_singleton]
              rfl

theorem surveyFrom_checked {judge : σ → Except Fault Unit} {required : Required}
    (collection : String) (t : Tally) (hopen : required.Open t.successful) (signatures : List σ) :
    (surveyFrom judge required collection t signatures).tally.checked =
      t.checked + (required.checked judge t.successful signatures).length := by
  induction signatures generalizing t with
  | nil =>
      rw [Required.checked_nil]
      rfl
  | cons s rest ih =>
      have hnext (n : Nat) (later : List σ) :
          t.checked + (s :: required.checked judge n later).length =
            t.checked + 1 + (required.checked judge n later).length := by
        rw [List.length_cons]
        omega
      rw [surveyFrom_cons]
      cases hs : judge s with
      | ok u =>
          rw [Required.checked_cons_of_ok hopen hs, hnext]
          dsimp only
          split
          · next hmet =>
              rw [Required.checked_of_not_open ((Required.isMetBy_succ_iff hopen).1 hmet)]
              rfl
          · next hmet =>
              have hstill := Classical.not_not.1 (mt (Required.isMetBy_succ_iff hopen).2 hmet)
              exact ih t.succeed hstill
      | error fault =>
          cases fault with
          | rejected r =>
              rw [Required.checked_cons_of_rejected hopen hs, hnext,
                ← t.checked_reject collection r, ← t.successful_reject collection r]
              exact ih _ ((t.successful_reject collection r).symm ▸ hopen)
          | _ =>
              rw [Required.checked_cons_of_fault hopen (by rw [fault?, hs])]
              rfl

/-! ## The log of commands -/

section Log

variable (launcher : Launcher) (verifier : Verifier) (manifest : String)
  (ignored : List Status.Kind)

/-- The commands that are started when signatures are checked one after another. -/
def startedCommands (required : Required) (collection : String) (signatures : List String) :
    List Command :=
  ((surveyM (checkM launcher.descriptor launcher.startLogged verifier manifest ignored) required
    collection signatures).run []).2

theorem run_checkM (signature : String) (log : List Command) :
    (checkM launcher.descriptor launcher.startLogged verifier manifest ignored signature).run log =
      (check launcher verifier manifest ignored signature,
        log ++ [verifier.command launcher.descriptor manifest signature].filter
          launcher.starts) := by
  rw [checkM, StateT.run_bind, Verifier.run_verifyM, check_eq]
  cases verifier.verify launcher manifest signature <;> rfl

/-- A survey whose commands are written down finds what a survey finds, and the log has the commands
    over the signatures that are checked, as far as they start. -/
theorem run_surveyM_checkM (required : Required) (collection : String)
    (signatures : List String) :
    (surveyM (checkM launcher.descriptor launcher.startLogged verifier manifest ignored) required
        collection signatures).run [] =
      (survey (check launcher verifier manifest ignored) required collection signatures,
        ((required.checked (check launcher verifier manifest ignored) 0 signatures).map
          (verifier.command launcher.descriptor manifest)).filter launcher.starts) := by
  rw [surveyM, run_surveyFromM (run_checkM launcher verifier manifest ignored) collection {}
    Required.open_zero, List.nil_append, List.map_eq_flatMap, List.filter_flatMap]
  rfl

variable {launcher verifier manifest ignored} {required : Required} {signatures : List String}

theorem not_starts_of_check_spawn {signature line : String} {cause : SystemFault}
    (h : check launcher verifier manifest ignored signature = .error (.spawn line cause)) :
    launcher.starts (verifier.command launcher.descriptor manifest signature) = false := by
  rw [check_eq] at h
  split at h
  · next fault hverify =>
      cases h
      exact Verifier.not_starts_of_verify_spawn hverify
  · next run _ =>
      -- a run that ended has a verdict, and none of them blames the start
      unfold verdict at h
      split at h
      · cases h
      · split at h <;> cases h
      · cases h

theorem startedCommands_eq (collection : String) :
    startedCommands launcher verifier manifest ignored required collection signatures =
      ((required.checked (check launcher verifier manifest ignored) 0 signatures).map
        (verifier.command launcher.descriptor manifest)).filter launcher.starts :=
  congrArg Prod.snd (run_surveyM_checkM launcher verifier manifest ignored required collection
    signatures)

/-- When the commands over all signatures that are checked start, no others are started. -/
theorem startedCommands_eq_map (collection : String)
    (hstarts : ∀ s ∈ required.checked (check launcher verifier manifest ignored) 0 signatures,
      launcher.starts (verifier.command launcher.descriptor manifest s) = true) :
    startedCommands launcher verifier manifest ignored required collection signatures =
      (required.checked (check launcher verifier manifest ignored) 0 signatures).map
        (verifier.command launcher.descriptor manifest) := by
  rw [startedCommands_eq, List.filter_eq_self]
  intro command hcommand
  obtain ⟨s, hs, rfl⟩ := List.mem_map.1 hcommand
  exact hstarts s hs

/-- When the commands over all signatures that are checked start, a survey counts them. -/
theorem survey_started (collection : String)
    (hstarts : ∀ s ∈ required.checked (check launcher verifier manifest ignored) 0 signatures,
      launcher.starts (verifier.command launcher.descriptor manifest s) = true) :
    (survey (check launcher verifier manifest ignored) required collection signatures).started =
      (required.checked (check launcher verifier manifest ignored) 0 signatures).length := by
  have hchecked : (survey (check launcher verifier manifest ignored) required collection
      signatures).tally.checked =
        (required.checked (check launcher verifier manifest ignored) 0 signatures).length :=
    (surveyFrom_checked collection {} Required.open_zero signatures).trans (Nat.zero_add _)
  rw [Survey.started]
  split
  · next line cause hfault =>
      -- a command that does not start is the last one, and it is among those that are checked
      rw [survey_fault, List.findSome?_eq_some_iff] at hfault
      obtain ⟨front, s, behind, hreached, hs, hfront⟩ := hfault
      rw [Required.checked_of_reached_append hreached hfront hs] at hstarts
      have hno := not_starts_of_check_spawn (fault?_eq_some_iff.1 hs).1
      rw [hstarts s (List.mem_append_right _ List.mem_cons_self)] at hno
      cases hno
  · exact hchecked

end Log

/-! ## Where a survey stops -/

namespace Required

/-- The number of signatures from the front that a requirement asks to be checked: for a count, the
    least number of them among which so many are good, and if there is none, all. -/
def StopsAt (good : σ → Bool) (signatures : List σ) (k : Nat) : Required → Prop
  | .all => k = signatures.length
  | .count n =>
    IsLeast {j | n.value ≤ (signatures.take j).countP good} k ∨
      signatures.countP good < n.value ∧ k = signatures.length

variable {good : σ → Bool} {required : Required} {signatures : List σ}

theorem take_length_reached :
    signatures.take (required.reached good 0 signatures).length =
      required.reached good 0 signatures :=
  (List.prefix_iff_eq_take.1 reached_prefix_self).symm

theorem stopsAt_length_reached :
    required.StopsAt good signatures (required.reached good 0 signatures).length := by
  cases required with
  | all => rfl
  | count n =>
      rcases Nat.lt_or_ge (signatures.countP good) n.value with hfew | henough
      · exact Or.inr ⟨hfew, congrArg List.length (upTo_eq_self hfew)⟩
      · refine Or.inl ⟨?_, fun j hj => ?_⟩
        · show n.value ≤ (signatures.take _).countP good
          rw [take_length_reached, reached, countP_upTo]
          omega
        · have hfront : upTo good n.value signatures = upTo good n.value (signatures.take j) := by
            rw [← upTo_append_of_le hj (signatures.drop j), List.take_append_drop]
          rw [reached, Nat.sub_zero, hfront]
          exact (upTo_prefix_self good n.value _).length_le.trans (List.length_take_le j signatures)

/-- In front of a signature that is reached, the count is still open. -/
theorem open_of_length_lt {front behind : List σ}
    (h : front.length < (required.reached good 0 (front ++ behind)).length) :
    required.Open (front.countP good) := by
  cases required with
  | all => trivial
  | count n =>
      by_contra hclosed
      rw [reached, Nat.sub_zero, upTo_append_of_le (Nat.not_lt.1 hclosed)] at h
      exact absurd h (Nat.not_lt.2 (upTo_prefix_self good n.value front).length_le)

/-- As many other signatures in place of those that are not reached are not reached either. -/
theorem reached_append_of_length {others : List σ}
    (h : others.length = signatures.length - (required.reached good 0 signatures).length) :
    required.reached good 0 (required.reached good 0 signatures ++ others) =
      required.reached good 0 signatures := by
  by_cases hall : required.reached good 0 signatures = signatures
  · rw [hall, Nat.sub_self] at h
    rw [List.eq_nil_of_length_eq_zero h, List.append_nil, hall, hall]
  · cases required with
    | all => exact absurd rfl hall
    | count n =>
        have henough : n.value ≤ signatures.countP good := by
          by_contra hfew
          exact hall (upTo_eq_self (Nat.not_le.1 hfew))
        have hfull : n.value ≤ (upTo good n.value signatures).countP good := by
          rw [countP_upTo]
          omega
        obtain ⟨rest, hrest⟩ := upTo_prefix_self good n.value signatures
        rw [reached, reached, Nat.sub_zero, upTo_append_of_le hfull, ← upTo_append_of_le hfull rest,
          hrest]

end Required

/-! ## Which commands a check starts -/

section Check

variable (launcher : Launcher) (verifier : Verifier) (manifest : String)
  (ignored : List Status.Kind) (requirement : Requirement) (collection : String)

/-- Checking signatures gives a result, and to that end one command is started over each of the
    signatures that are asked about, in order, and no other command. -/
structure Settles (signatures : List String) (result : Except Fault Report)
    (asked : List String) : Prop where
  result : checkAll (check launcher verifier manifest ignored) requirement collection signatures =
    result
  commands : startedCommands launcher verifier manifest ignored requirement.required collection
    signatures = asked.map (verifier.command launcher.descriptor manifest)
  started : (survey (check launcher verifier manifest ignored) requirement.required collection
    signatures).started = asked.length

variable {launcher verifier manifest ignored requirement collection}

theorem settles_of_checked {signatures asked : List String} {result : Except Fault Report}
    (hresult : checkAll (check launcher verifier manifest ignored) requirement collection
      signatures = result)
    (hasked : requirement.required.checked (check launcher verifier manifest ignored) 0
      signatures = asked)
    (hstarts : ∀ s ∈ asked,
      launcher.starts (verifier.command launcher.descriptor manifest s) = true) :
    Settles launcher verifier manifest ignored requirement collection signatures result asked := by
  subst hasked
  exact ⟨hresult, startedCommands_eq_map collection hstarts, survey_started collection hstarts⟩

theorem settles_of_reached {signatures : List String}
    (hnone : ∀ s ∈ requirement.required.reached
      (verifies (check launcher verifier manifest ignored)) 0 signatures,
      fault? (check launcher verifier manifest ignored) s = none)
    (hstarts : ∀ s ∈ signatures,
      launcher.starts (verifier.command launcher.descriptor manifest s) = true) :
    ∃ report, Settles launcher verifier manifest ignored requirement collection signatures
      (.ok report) (requirement.required.reached
        (verifies (check launcher verifier manifest ignored)) 0 signatures) :=
  ⟨_, settles_of_checked (checkAll_eq_ok_iff.2 ⟨hnone, rfl⟩) (Required.checked_eq_reached hnone)
    fun s hs => hstarts s (Required.reached_subset hs)⟩

theorem settles_of_fault {front : List String} {s : String} {fault : Fault}
    (hopen : requirement.required.Open
      (front.countP (verifies (check launcher verifier manifest ignored))))
    (hfront : ∀ t ∈ front, fault? (check launcher verifier manifest ignored) t = none)
    (hs : fault? (check launcher verifier manifest ignored) s = some fault) (behind : List String)
    (hstarts : ∀ t ∈ front ++ [s],
      launcher.starts (verifier.command launcher.descriptor manifest t) = true) :
    Settles launcher verifier manifest ignored requirement collection (front ++ s :: behind)
      (.error fault) (front ++ [s]) := by
  rw [← Nat.zero_add (front.countP _)] at hopen
  have hreached := (Required.reached_append hopen (s :: behind)).trans
    (congrArg (front ++ ·) (Required.reached_cons hopen s behind))
  refine settles_of_checked (checkAll_eq_error_iff.2 ?_)
    (Required.checked_of_reached_append hreached hfront hs) hstarts
  rw [hreached, List.findSome?_eq_some_iff]
  exact ⟨front, s, _, rfl, hs, hfront⟩

/-- What stands behind the signatures that are reached has no influence on what a check does. -/
theorem checkAll_reached_append {signatures others : List String}
    (hlength : others.length = signatures.length - (requirement.required.reached
      (verifies (check launcher verifier manifest ignored)) 0 signatures).length) :
    checkAll (check launcher verifier manifest ignored) requirement collection
        (requirement.required.reached (verifies (check launcher verifier manifest ignored)) 0
          signatures ++ others) =
      checkAll (check launcher verifier manifest ignored) requirement collection signatures ∧
    startedCommands launcher verifier manifest ignored requirement.required collection
        (requirement.required.reached (verifies (check launcher verifier manifest ignored)) 0
          signatures ++ others) =
      startedCommands launcher verifier manifest ignored requirement.required collection
        signatures := by
  have hprefix : requirement.required.reached
      (verifies (check launcher verifier manifest ignored)) 0 signatures <+: signatures :=
    Required.reached_prefix_self
  have htotal : (requirement.required.reached
      (verifies (check launcher verifier manifest ignored)) 0 signatures ++ others).length =
        signatures.length := by
    rw [List.length_append, hlength]
    exact Nat.add_sub_of_le hprefix.length_le
  rw [checkAll_eq, checkAll_eq, startedCommands_eq, startedCommands_eq, Required.checked,
    Required.checked, Required.reached_append_of_length hlength, htotal]
  exact ⟨rfl, rfl⟩

/-- **Which signatures GnuPG is run for.** Suppose that the command over each signature of a list
    starts. There is a number of signatures after which the requirement asks for no more.
    If none of these is at fault, a check gives a report, and has run GnuPG once over each of them.
    If one of them is the first at fault, a check fails with its fault, whatever stands behind it,
    and has run GnuPG once over each signature up to it.
    And whatever stands behind the signatures that are asked for, the check does the same. -/
theorem checkAll_startedCommands (launcher : Launcher) (verifier : Verifier) (manifest : String)
    (ignored : List Status.Kind) (requirement : Requirement) (collection : String)
    (signatures : List String)
    (hstarts : ∀ s ∈ signatures,
      launcher.starts (verifier.command launcher.descriptor manifest s) = true) :
    ∃ k,
      requirement.required.StopsAt (verifies (check launcher verifier manifest ignored))
        signatures k ∧
      ((∀ s ∈ signatures.take k, fault? (check launcher verifier manifest ignored) s = none) →
        ∃ report, Settles launcher verifier manifest ignored requirement collection signatures
          (.ok report) (signatures.take k)) ∧
      (∀ front s behind fault, signatures = front ++ s :: behind → front.length < k →
        (∀ t ∈ front, fault? (check launcher verifier manifest ignored) t = none) →
        fault? (check launcher verifier manifest ignored) s = some fault →
        ∀ others, Settles launcher verifier manifest ignored requirement collection
          (front ++ s :: others) (.error fault) (front ++ [s])) ∧
      ∀ others, others.length = (signatures.drop k).length →
        checkAll (check launcher verifier manifest ignored) requirement collection
            (signatures.take k ++ others) =
          checkAll (check launcher verifier manifest ignored) requirement collection signatures ∧
        startedCommands launcher verifier manifest ignored requirement.required collection
            (signatures.take k ++ others) =
          startedCommands launcher verifier manifest ignored requirement.required collection
            signatures := by
  refine ⟨_, Required.stopsAt_length_reached, ?_, ?_, ?_⟩
  · rw [Required.take_length_reached]
    exact fun hnone => settles_of_reached hnone hstarts
  · rintro front s behind fault rfl hlt hfront hs others
    refine settles_of_fault (Required.open_of_length_lt hlt) hfront hs others fun t ht => ?_
    rw [List.mem_append, List.mem_singleton] at ht
    refine hstarts t (List.mem_append.2 (ht.imp_right ?_))
    rintro rfl
    exact List.mem_cons_self
  · intro others hlength
    rw [List.length_drop] at hlength
    rw [Required.take_length_reached]
    exact checkAll_reached_append hlength

end Check

/-- Where one good signature is required, the second one of three is good, so that it does not
    matter that the status of the third one is malformed. Where all are required, a malformed status
    of the second one ends the check. -/
theorem checkAll_startedCommands_twoOfThree :
    (∃ report, Settles .echo { keyring := "ring" } "m" [] .single "a.b"
      ["_ KEYEXPIRED 17", "", "_ BADSIG"] (.ok report) ["_ KEYEXPIRED 17", ""]) ∧
    ∃ fault, Settles .echo { keyring := "ring" } "m" [] ⟨false, .all⟩ "a.b"
      ["_ KEYEXPIRED 17", "_ BADSIG", ""] (.error fault) ["_ KEYEXPIRED 17", "_ BADSIG"] := by
  have hexpired : fault? (check .echo { keyring := "ring" } "m" []) "_ KEYEXPIRED 17" = none :=
    fault?_of_rejected (r := ⟨["The key has expired."], "_ KEYEXPIRED 17", 0, false⟩) rfl
  constructor
  · obtain ⟨k, hstop, hreport, -⟩ := checkAll_startedCommands .echo { keyring := "ring" } "m" []
      .single "a.b" ["_ KEYEXPIRED 17", "", "_ BADSIG"] fun s _ => rfl
    have hk : k = 2 := by
      rcases hstop with hleast | ⟨hfew, -⟩
      · refine hleast.unique ⟨Nat.le_refl 1, ?_⟩
        rintro (_ | _ | j) hj
        · cases hj
        · cases hj
        · omega
      · exact absurd hfew (Nat.lt_irrefl 1)
    subst hk
    exact hreport (List.forall_mem_cons.2
      ⟨hexpired, List.forall_mem_singleton.2 (fault?_of_ok rfl)⟩)
  · obtain ⟨k, rfl, -, hfault, -⟩ := checkAll_startedCommands .echo { keyring := "ring" } "m" []
      ⟨false, .all⟩ "a.b" ["_ KEYEXPIRED 17", "_ BADSIG", ""] fun s _ => rfl
    exact ⟨_, hfault ["_ KEYEXPIRED 17"] "_ BADSIG" [""] _ rfl (by decide)
      (List.forall_mem_singleton.2 hexpired) rfl [""]⟩

end SigVerdict.Signature
