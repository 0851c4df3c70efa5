import Mathlib.Data.Finset.Card
import SigVerdict.Proofs.Signature.Classification

set_option autoImplicit false

/-! # The kinds behind a rejection

A check reads a status only for the kinds of its outcomes. Two runs that end with the same exit code
and report the same set of kinds have the same result but for the status itself (`check_kinds`), in
whatever order and however often the kinds are reported, and whatever the fields of the outcomes and
the skipped lines around them say.

This rests on the two things that a rejection makes of the outcomes. Its reasons are the
descriptions of the kinds, and since these differ from kind to kind, there are as many reasons as
kinds (`Tells.length_reasons`). And it is ignored when the ignore list covers the set of kinds
(`Tells.ignored_iff_subset`), although outcomes are looked at one by one. -/

namespace SigVerdict.Status

set_option maxRecDepth 4000 in
/-- No two texts of the registry are the same when their white space is collapsed. -/
theorem Kind.exists_documentation :
    ∃ texts : List (List Char), Kind.all.map Kind.documentation = texts.map String.ofList ∧
      (texts.map Text.collapse).Nodup :=
  -- the characters are found by unification, since reading them off a string is slow
  ⟨[_, _, _, _, _, _, _, _, _, _, _, _, _, _, _, _], rfl, by decide +kernel⟩

/-- No two kinds have the same description. -/
theorem Kind.description_injective : Function.Injective Kind.description := by
  obtain ⟨texts, htexts, hnodup⟩ := Kind.exists_documentation
  have hdescriptions : Kind.all.map Kind.description =
      (texts.map Text.collapse).map String.ofList := by
    calc Kind.all.map Kind.description
        = (Kind.all.map Kind.documentation).map fun text =>
            String.ofList (Text.collapse text.toList) := List.map_map.symm
      _ = (texts.map Text.collapse).map String.ofList := by
          rw [htexts, List.map_map, List.map_map]
          refine List.map_congr_left fun cs _ => ?_
          simp only [Function.comp_apply, String.toList_ofList]
  have hall : (Kind.all.map Kind.description).Nodup := by
    rw [hdescriptions]
    exact hnodup.map fun _ _ => String.ofList_injective
  intro a b h
  exact List.inj_on_of_nodup_map hall a.mem_all b.mem_all h

end SigVerdict.Status

namespace SigVerdict.Signature

open Gpg Status Text
open Text.Utf8 (decodeLossy)

/-- The kinds of the outcomes that a status reports. -/
def reportedKinds (status : List UInt8) : Finset Kind :=
  ((outcomes (decodeLossy status)).map Outcome.kind).toFinset

/-- Two results are the same but for the status that a rejection quotes. -/
inductive SameButStatus : Except Fault Unit → Except Fault Unit → Prop where
  | verified : SameButStatus (.ok ()) (.ok ())
  | rejected (r : Rejection) (status : String) :
      SameButStatus (.error (.rejected r)) (.error (.rejected { r with statusOutput := status }))

variable {ignored ignored' : List Kind} {status status' : List UInt8} {exit exit' : Option Nat}
  {r r' : Rejection}

theorem mem_reportedKinds {kind : Kind} :
    kind ∈ reportedKinds status ↔
      ∃ outcome ∈ outcomes (decodeLossy status), outcome.kind = kind := by
  rw [reportedKinds, List.mem_toFinset, List.mem_map]

theorem reportedKinds_eq_empty_iff :
    reportedKinds status = ∅ ↔ outcomes (decodeLossy status) = [] := by
  rw [reportedKinds, List.toFinset_eq_empty_iff, List.map_eq_nil_iff]

/-! ## What a rejection makes of the kinds -/

/-- The reasons are the descriptions of the reported kinds. -/
theorem Tells.toFinset_reasons (h : Tells ignored status exit r) :
    r.reasons.toFinset = (reportedKinds status).image Kind.description := by
  ext reason
  simp only [List.mem_toFinset, h.mem_reasons, Finset.mem_image, mem_reportedKinds]
  constructor
  · rintro ⟨outcome, hmem, rfl⟩
    exact ⟨outcome.kind, ⟨outcome, hmem, rfl⟩, rfl⟩
  · rintro ⟨_, ⟨outcome, hmem, rfl⟩, rfl⟩
    exact ⟨outcome, hmem, rfl⟩

/-- There are as many reasons as reported kinds. -/
theorem Tells.length_reasons (h : Tells ignored status exit r) :
    r.reasons.length = (reportedKinds status).card := by
  have hnodup : r.reasons.Nodup := h.rising.nodup
  calc r.reasons.length = r.reasons.toFinset.card := (List.toFinset_card_of_nodup hnodup).symm
    _ = ((reportedKinds status).image Kind.description).card := by rw [h.toFinset_reasons]
    _ = (reportedKinds status).card :=
        Finset.card_image_of_injective _ Kind.description_injective

/-- A rejection is ignored when the ignore list covers the reported kinds. -/
theorem Tells.ignored_iff_subset (h : Tells ignored status exit r) :
    r.ignored = true ↔ reportedKinds status ⊆ ignored.toFinset := by
  rw [h.ignored_iff]
  constructor
  · intro hall kind hkind
    obtain ⟨outcome, hmem, rfl⟩ := mem_reportedKinds.1 hkind
    exact List.mem_toFinset.2 (hall outcome hmem)
  · intro hsubset outcome hmem
    exact List.mem_toFinset.1 (hsubset (mem_reportedKinds.2 ⟨outcome, hmem, rfl⟩))

/-- Rejections by runs with the same exit code that report the same kinds are the same but for the
    status. -/
theorem Tells.eq_with_status (h : Tells ignored status exit r)
    (h' : Tells ignored' status' exit' r') (hexit : exitCodeOf exit = exitCodeOf exit')
    (hkinds : reportedKinds status = reportedKinds status')
    (hignored : ignored.toFinset = ignored'.toFinset) :
    r' = { r with statusOutput := r'.statusOutput } := by
  -- the status decides on the reasons and on the mark only through the set of kinds
  have hreasons : r'.reasons = r.reasons := by
    refine eq_of_rising h'.rising h.rising fun reason => ?_
    rw [← List.mem_toFinset, ← List.mem_toFinset, h.toFinset_reasons, h'.toFinset_reasons, hkinds]
  have hcode : r'.exitCode = r.exitCode := by rw [h.exitCode, h'.exitCode, hexit]
  have hcovered : r'.ignored = r.ignored := by
    rw [Bool.eq_iff_iff, h.ignored_iff_subset, h'.ignored_iff_subset, hkinds, hignored]
  cases r'
  simp only at hreasons hcode hcovered
  rw [hreasons, hcode, hcovered]

/-- A report that has reasons to show does not quote the status. -/
theorem Rejection.report_with_status (h : r.reasons ≠ []) (status collection : String) :
    ({ r with statusOutput := status } : Rejection).report collection = r.report collection := by
  have hreasons : ¬r.reasons.isEmpty = true := by simpa using h
  rw [Rejection.report, Rejection.report, if_neg hreasons, if_neg hreasons]

/-- What is the same as a rejection with reasons is a rejection with the same report. -/
theorem SameButStatus.exists_rejected {result : Except Fault Unit}
    (h : SameButStatus (.error (.rejected r)) result) (hreasons : r.reasons ≠ []) :
    ∃ r', result = .error (.rejected r') ∧
      ∀ collection, r'.report collection = r.report collection := by
  cases h with
  | rejected _ other => exact ⟨_, rfl, Rejection.report_with_status hreasons other⟩

/-! ## The result of a run that reports kinds, or none -/

/-- A run that reports kinds is rejected for its outcomes, whatever its exit code. -/
theorem verdict_of_kinds (hwell : WellFormed (decodeLossy status))
    (hkinds : reportedKinds status ≠ ∅) (ignored : List Kind) (exit : Option Nat) :
    verdict ignored (.ofEnd status exit) = .error (.rejected
      (rejectionOf (.ofEnd status exit) ignored (outcomes (decodeLossy status)))) := by
  have hreports : outcomes (decodeLossy status) ≠ [] := mt reportedKinds_eq_empty_iff.2 hkinds
  exact verdict_of_classified (.reported hwell hreports (tells_rejectionOf ignored status exit))

/-- Of a run that reports no kinds, the exit code alone decides. -/
theorem verdict_of_no_kinds (hwell : WellFormed (decodeLossy status))
    (hkinds : reportedKinds status = ∅) (ignored : List Kind) (exit : Option Nat) :
    verdict ignored (.ofEnd status exit) =
      if exitCodeOf exit = 0 then .ok ()
      else .error (.rejected ⟨[], String.ofList (decodeLossy status), exitCodeOf exit, false⟩) := by
  have hquiet := reportedKinds_eq_empty_iff.1 hkinds
  by_cases hzero : exitCodeOf exit = 0
  · rw [if_pos hzero]
    exact verdict_of_classified (.verified hwell hquiet (exitCodeOf_eq_zero_iff.1 hzero))
  · rw [if_neg hzero]
    exact verdict_of_classified (.failed hwell hquiet (mt exitCodeOf_eq_zero_iff.2 hzero))

theorem verdict_sameButStatus (hwell : WellFormed (decodeLossy status))
    (hwell' : WellFormed (decodeLossy status')) (hexit : exitCodeOf exit = exitCodeOf exit')
    (hkinds : reportedKinds status = reportedKinds status')
    (hignored : ignored.toFinset = ignored'.toFinset) :
    SameButStatus (verdict ignored (.ofEnd status exit))
      (verdict ignored' (.ofEnd status' exit')) := by
  by_cases hnone : reportedKinds status = ∅
  · have hnone' : reportedKinds status' = ∅ := hkinds ▸ hnone
    rw [verdict_of_no_kinds hwell hnone, verdict_of_no_kinds hwell' hnone', ← hexit]
    split
    · exact .verified
    · exact .rejected _ _
  · have hsome' : reportedKinds status' ≠ ∅ := hkinds ▸ hnone
    have htells := tells_rejectionOf ignored status exit
    have htells' := tells_rejectionOf ignored' status' exit'
    rw [verdict_of_kinds hwell hnone, verdict_of_kinds hwell' hsome',
      htells.eq_with_status htells' hexit hkinds hignored]
    exact .rejected _ _

/-- A rejection has as many reasons as its run reports kinds. -/
theorem length_reasons_of_verdict
    (h : verdict ignored (.ofEnd status exit) = .error (.rejected r)) :
    r.reasons.length = (reportedKinds status).card := by
  have hclass := classified_verdict ignored status exit
  rw [h] at hclass
  cases hclass with
  | reported _ _ htells => exact htells.length_reasons
  | failed _ hquiet =>
      rw [reportedKinds_eq_empty_iff.2 hquiet]
      rfl

/-- **Rejections depend on the set of kinds.** Take two runs that ended with the same exit code,
    without a malformed line and with the same set of kinds among their outcomes, and two ignore
    lists with the same members. Then the two checks have the same result but for the status that a
    rejection quotes. A rejection has as many reasons as kinds are reported, since no two kinds have
    the same description; and when any are, both signatures are rejected with the same report. -/
theorem check_kinds (launcher launcher' : Launcher) (verifier verifier' : Verifier)
    (manifest manifest' signature signature' : String) (ignored ignored' : List Kind)
    (status status' : List UInt8) (exit exit' : Option Nat)
    (hends : verifier.Ends launcher manifest signature status exit)
    (hends' : verifier'.Ends launcher' manifest' signature' status' exit')
    (hexit : exitCodeOf exit = exitCodeOf exit')
    (hwell : WellFormed (decodeLossy status)) (hwell' : WellFormed (decodeLossy status'))
    (hkinds : reportedKinds status = reportedKinds status')
    (hignored : ignored.toFinset = ignored'.toFinset) :
    SameButStatus (check launcher verifier manifest ignored signature)
      (check launcher' verifier' manifest' ignored' signature') ∧
    (∀ r, check launcher verifier manifest ignored signature = .error (.rejected r) →
      r.reasons.length = (reportedKinds status).card) ∧
    (∀ a b : Kind, a.description = b.description → a = b) ∧
    (reportedKinds status ≠ ∅ → ∃ r r',
      check launcher verifier manifest ignored signature = .error (.rejected r) ∧
      check launcher' verifier' manifest' ignored' signature' = .error (.rejected r') ∧
      ∀ collection, r.report collection = r'.report collection) := by
  rw [check_of_ends hends, check_of_ends hends']
  have hsame := verdict_sameButStatus hwell hwell' hexit hkinds hignored
  refine ⟨hsame, fun r => length_reasons_of_verdict, Kind.description_injective, ?_⟩
  intro hsome
  have hrejected := verdict_of_kinds hwell hsome ignored exit
  have hpos : 0 < (reportedKinds status).card :=
    Finset.card_pos.2 (Finset.nonempty_iff_ne_empty.2 hsome)
  rw [← length_reasons_of_verdict hrejected] at hpos
  rw [hrejected] at hsame
  obtain ⟨r', hr', hreport⟩ := hsame.exists_rejected (List.length_pos_iff.1 hpos)
  exact ⟨_, r', hrejected, hr', fun collection => (hreport collection).symm⟩

/-- An expired key and a bad signature: told of two bad signatures in another order, between other
    lines and with the ignore list doubled, the report is the same. -/
theorem check_kinds_badSig :
    ∃ r r',
      check ⟨3, fun _ => .ended 0 (Utf8.encode
          "[GNUPG:] KEYEXPIRED 17\n[GNUPG:] BADSIG 01 A\n".toList) (some 1)⟩
        { keyring := "ring" } "m" [.keyExpired] "s" = .error (.rejected r) ∧
      check ⟨4, fun _ => .ended 0 (Utf8.encode
          "BADSIG\n? BADSIG 02 B  C\n? GOOD\n? BADSIG 01 A\n? KEYEXPIRED 3".toList) (some 1)⟩
        { keyring := "other" } "m" [.keyExpired, .keyExpired] "s" = .error (.rejected r') ∧
      r.reasons.length = 2 ∧ ∀ collection, r.report collection = r'.report collection := by
  have hends : ({ keyring := "ring" } : Verifier).Ends
      ⟨3, fun _ => .ended 0 (Utf8.encode
        "[GNUPG:] KEYEXPIRED 17\n[GNUPG:] BADSIG 01 A\n".toList) (some 1)⟩ "m" "s"
      (Utf8.encode "[GNUPG:] KEYEXPIRED 17\n[GNUPG:] BADSIG 01 A\n".toList) (some 1) :=
    ⟨0, rfl, nofun⟩
  have hends' : ({ keyring := "other" } : Verifier).Ends
      ⟨4, fun _ => .ended 0 (Utf8.encode
        "BADSIG\n? BADSIG 02 B  C\n? GOOD\n? BADSIG 01 A\n? KEYEXPIRED 3".toList) (some 1)⟩ "m" "s"
      (Utf8.encode
        "BADSIG\n? BADSIG 02 B  C\n? GOOD\n? BADSIG 01 A\n? KEYEXPIRED 3".toList) (some 1) :=
    ⟨0, rfl, nofun⟩
  obtain ⟨-, hlength, -, hreport⟩ := check_kinds _ _ _ _ "m" "m" "s" "s" [.keyExpired]
    [.keyExpired, .keyExpired] _ _ _ _ hends hends' rfl (collect_items_eq_ok_iff.1 rfl).1
    (collect_items_eq_ok_iff.1 rfl).1 (by decide) (by decide)
  obtain ⟨r, r', hr, hr', hsame⟩ := hreport (by decide)
  exact ⟨r, r', hr, hr', (hlength r hr).trans (by decide), hsame⟩

end SigVerdict.Signature
