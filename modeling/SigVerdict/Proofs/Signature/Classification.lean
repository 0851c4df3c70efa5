import SigVerdict.Proofs.Gpg.Run
import SigVerdict.Proofs.Signature.ReasonSet
import SigVerdict.Proofs.Status.Stream
import SigVerdict.Signature.Check

set_option autoImplicit false

/-! # Classes of finished runs

A finished run falls into one of four classes by what it wrote and how it ended. A malformed status
line outweighs everything else; next come the outcomes, which reject the signature whatever the
exit code is; without any of them the exit code decides. The check of a signature gives exactly the
result of the class of its run (`check_eq_iff_classified`). -/

namespace SigVerdict.Signature

open Gpg Status Text
open Text.Utf8 (decodeLossy lineFeed)

/-- A rejection tells what a run reported: the descriptions of its outcomes, each once and in order,
    the whole status, and the exit code. It is ignored when the kinds of all outcomes are. -/
structure Tells (ignored : List Kind) (status : List UInt8) (exit : Option Nat) (r : Rejection) :
    Prop where
  mem_reasons : ∀ reason, reason ∈ r.reasons ↔
    ∃ outcome ∈ outcomes (decodeLossy status), outcome.description = reason
  rising : Rising r.reasons
  statusOutput : r.statusOutput = String.ofList (decodeLossy status)
  exitCode : r.exitCode = exitCodeOf exit
  ignored_iff : r.ignored = true ↔ ∀ outcome ∈ outcomes (decodeLossy status), outcome.kind ∈ ignored

/-- The result that belongs to a run which wrote these octets and ended with this exit code, for
    want of which a signal killed it. -/
inductive Classified (ignored : List Kind) (status : List UInt8) (exit : Option Nat) :
    Except Fault Unit → Prop where
  /-- Some line is malformed, and the first of these is the fault. -/
  | malformed {fault : LineFault} (first : FirstMalformed (decodeLossy status) fault) :
      Classified ignored status exit (.error (.statusDecode fault))
  /-- All lines can be decoded, and some give outcomes. -/
  | reported {r : Rejection} (wellFormed : WellFormed (decodeLossy status))
      (reports : outcomes (decodeLossy status) ≠ []) (tells : Tells ignored status exit r) :
      Classified ignored status exit (.error (.rejected r))
  /-- All lines are skipped, and the command failed or was killed. -/
  | failed (wellFormed : WellFormed (decodeLossy status))
      (quiet : outcomes (decodeLossy status) = []) (failure : exit ≠ some 0) :
      Classified ignored status exit
        (.error (.rejected ⟨[], String.ofList (decodeLossy status), exitCodeOf exit, false⟩))
  /-- All lines are skipped, and the command succeeded. -/
  | verified (wellFormed : WellFormed (decodeLossy status))
      (quiet : outcomes (decodeLossy status) = []) (success : exit = some 0) :
      Classified ignored status exit (.ok ())

/-! ## The verdict about a finished run -/

theorem tells_rejectionOf (ignored : List Kind) (status : List UInt8) (exit : Option Nat) :
    Tells ignored status exit
      (rejectionOf (.ofEnd status exit) ignored (outcomes (decodeLossy status))) where
  mem_reasons reason := by rw [rejectionOf, mem_reasonSet, List.mem_map]
  rising := reasonSet_rising _
  statusOutput := rfl
  exitCode := Run.exitCode_ofEnd status exit
  ignored_iff := by simp [rejectionOf, List.all_eq_true]

/-- What a rejection has to tell leaves no choice. -/
theorem Tells.eq {ignored : List Kind} {status : List UInt8} {exit : Option Nat} {r s : Rejection}
    (hr : Tells ignored status exit r) (hs : Tells ignored status exit s) : r = s := by
  have hreasons : r.reasons = s.reasons :=
    eq_of_rising hr.rising hs.rising fun reason =>
      (hr.mem_reasons reason).trans (hs.mem_reasons reason).symm
  have hignored : r.ignored = s.ignored :=
    Bool.eq_iff_iff.2 (hr.ignored_iff.trans hs.ignored_iff.symm)
  cases r
  cases s
  simp only [Rejection.mk.injEq]
  exact ⟨hreasons, hr.statusOutput.trans hs.statusOutput.symm, hr.exitCode.trans hs.exitCode.symm,
    hignored⟩

/-- The verdict about a run belongs to the run's class. -/
theorem classified_verdict (ignored : List Kind) (status : List UInt8) (exit : Option Nat) :
    Classified ignored status exit (verdict ignored (.ofEnd status exit)) := by
  rw [verdict, Run.items_ofEnd]
  cases hcollect : collect (items (decodeLossy status)) with
  | error fault => exact .malformed (collect_items_eq_error_iff.1 hcollect)
  | ok found =>
      obtain ⟨hwell, hfound⟩ := collect_items_eq_ok_iff.1 hcollect
      cases found with
      | nil =>
          by_cases hexit : exit = some 0
          · rw [if_pos (Run.success_ofEnd_iff.2 hexit)]
            exact .verified hwell hfound.symm hexit
          · rw [if_neg (mt Run.success_ofEnd_iff.1 hexit), Run.exitCode_ofEnd]
            exact .failed hwell hfound.symm hexit
      | cons outcome rest =>
          refine .reported hwell (by rw [← hfound]; exact List.cons_ne_nil _ _) ?_
          rw [hfound]
          exact tells_rejectionOf ignored status exit

/-- The result of a run's class is the verdict about the run. -/
theorem verdict_of_classified {ignored : List Kind} {status : List UInt8} {exit : Option Nat}
    {result : Except Fault Unit} (h : Classified ignored status exit result) :
    verdict ignored (.ofEnd status exit) = result := by
  rw [verdict, Run.items_ofEnd]
  cases h with
  | malformed first => rw [collect_items_eq_error_iff.2 first]
  | reported wellFormed reports tells =>
      rw [collect_items_eq_ok_iff.2 ⟨wellFormed, rfl⟩]
      cases hfound : outcomes (decodeLossy status) with
      | nil => exact absurd hfound reports
      | cons outcome rest =>
          have hr := (tells_rejectionOf ignored status exit).eq tells
          rw [hfound] at hr
          rw [← hr]
  | failed wellFormed quiet failure =>
      rw [collect_items_eq_ok_iff.2 ⟨wellFormed, quiet.symm⟩]
      simp only [if_neg (mt Run.success_ofEnd_iff.1 failure), Run.exitCode_ofEnd]
      rfl
  | verified wellFormed quiet success =>
      rw [collect_items_eq_ok_iff.2 ⟨wellFormed, quiet.symm⟩]
      exact if_pos (Run.success_ofEnd_iff.2 success)

/-! ## The check of a signature -/

section Check

variable {launcher : Launcher} {verifier : Verifier} {manifest signature : String}
  {ignored : List Kind}

theorem check_of_ends {status : List UInt8} {exit : Option Nat}
    (h : verifier.Ends launcher manifest signature status exit) :
    check launcher verifier manifest ignored signature = verdict ignored (.ofEnd status exit) := by
  rw [check_eq, Verifier.verify_of_ends h]

/-- The check of a signature whose run ended gives a result exactly if it is the result of the run's
    class. -/
theorem check_eq_iff_classified {status : List UInt8} {exit : Option Nat}
    (h : verifier.Ends launcher manifest signature status exit) {result : Except Fault Unit} :
    check launcher verifier manifest ignored signature = result ↔
      Classified ignored status exit result := by
  rw [check_of_ends h]
  refine ⟨fun he => ?_, verdict_of_classified⟩
  rw [← he]
  exact classified_verdict ignored status exit

variable (launcher verifier manifest ignored signature) in
/-- A run ends, or the check of its signature has a fault that is no rejection. -/
theorem ends_or_check_fault :
    (∃ status exit, verifier.Ends launcher manifest signature status exit) ∨
      ∃ fault, check launcher verifier manifest ignored signature = .error fault ∧
        ∀ r, fault ≠ .rejected r := by
  rcases verifier.ends_or_verify_fault launcher manifest signature with hends | ⟨fault, hfault, hne⟩
  · exact Or.inl hends
  · exact Or.inr ⟨fault, by rw [check_eq, hfault], hne⟩

end Check

/-- **The check of one signature.** Whatever the run of the command wrote and however it ended, the
    check gives the result of the run's class and no other. So a rejection without an outcome is
    never ignored, and a signature never verifies when a signal killed the command. -/
theorem check_classification (launcher : Launcher) (verifier : Verifier)
    (manifest signature : String) (ignored : List Kind) (status : List UInt8) (exit : Option Nat)
    (hends : verifier.Ends launcher manifest signature status exit) :
    (∀ result, check launcher verifier manifest ignored signature = result ↔
      Classified ignored status exit result) ∧
    (∀ r, check launcher verifier manifest ignored signature = .error (.rejected r) →
      outcomes (decodeLossy status) = [] → r.ignored = false) ∧
    (exit = none → check launcher verifier manifest ignored signature ≠ .ok ()) := by
  refine ⟨fun result => check_eq_iff_classified hends, ?_, ?_⟩
  · intro r hr hnone
    cases (check_eq_iff_classified hends).1 hr with
    | reported _ reports _ => exact absurd hnone reports
    | failed => rfl
  · intro hkilled hok
    cases (check_eq_iff_classified hends).1 hok with
    | verified _ _ success => rw [hkilled] at success; cases success

/-- A line of garbage and an expired key, reported by a command that a signal killed. -/
theorem check_classification_killed :
    ({ keyring := "ring" } : Verifier).Ends
        ⟨3, fun _ => .ended 0 (0xFF :: Utf8.encode "\n[GNUPG:] KEYEXPIRED 17\n".toList) none⟩
        "m" "s" (0xFF :: Utf8.encode "\n[GNUPG:] KEYEXPIRED 17\n".toList) none ∧
      Classified [.keyExpired] (0xFF :: Utf8.encode "\n[GNUPG:] KEYEXPIRED 17\n".toList) none
        (.error (.rejected
          ⟨["The key has expired."], "\ufffd\n[GNUPG:] KEYEXPIRED 17\n", -1, true⟩)) := by
  have hends : ({ keyring := "ring" } : Verifier).Ends
      ⟨3, fun _ => .ended 0 (0xFF :: Utf8.encode "\n[GNUPG:] KEYEXPIRED 17\n".toList) none⟩
      "m" "s" (0xFF :: Utf8.encode "\n[GNUPG:] KEYEXPIRED 17\n".toList) none := ⟨0, rfl, nofun⟩
  exact ⟨hends, ((check_classification _ _ _ _ [.keyExpired] _ _ hends).1 _).1 rfl⟩

/-! ## Lines that cannot be hidden -/

/-- What stands alone between line feeds of a status is a line of its text, and is decoded as if
    nothing stood around it. -/
theorem exists_statusLine_between {front line behind : List UInt8}
    (hfront : front = [] ∨ front.getLast? = some lineFeed) (hline : lineFeed ∉ line)
    (hbehind : behind = [] ∨ behind.head? = some lineFeed)
    (hne : decodeLine (decodeLossy line) ≠ .ok none) :
    ∃ found ∈ lines (decodeLossy (front ++ line ++ behind)),
      decodeLine found = decodeLine (decodeLossy line) := by
  have hbehind' : ∃ text, decodeLossy (line ++ behind) = decodeLossy line ++ text ∧
      (text = [] ∨ ∃ after, text = '\n' :: after) := by
    rcases hbehind with rfl | h
    · exact ⟨[], by rw [List.append_nil, List.append_nil], Or.inl rfl⟩
    · obtain ⟨after, rfl⟩ := List.head?_eq_some_iff.1 h
      exact ⟨_, Utf8.decodeLossy_append_lineFeed line after, Or.inr ⟨_, rfl⟩⟩
  obtain ⟨text, htext, hstart⟩ := hbehind'
  rw [List.append_assoc, Utf8.decodeLossy_append_of_ended hfront, htext, ← List.append_assoc]
  exact exists_line_between (Utf8.decodeLossy_ended hfront)
    (Utf8.lineFeed_not_mem_decodeLossy hline) hstart hne

/-- The outcome of a line is an outcome of the stream. -/
theorem mem_outcomes {text line : List Char} {outcome : Outcome} (hline : line ∈ lines text)
    (h : decodeLine line = .ok (some outcome)) : outcome ∈ outcomes text :=
  List.mem_filterMap.2 ⟨line, hline, by rw [outcomeOfLine?, h]⟩

/-- **A status line cannot be hidden.** Whatever octets stand in front of a line and behind it, a
    signature does not verify if the line, read by itself, gives an outcome or a fault; and if it
    gives an outcome that is not to be ignored, then no rejection is ignored. -/
theorem check_statusLine_visible (launcher : Launcher) (verifier : Verifier)
    (manifest signature : String) (ignored : List Kind) (front line behind : List UInt8)
    (exit : Option Nat) (hends : verifier.Ends launcher manifest signature
      (front ++ line ++ behind) exit)
    (hfront : front = [] ∨ front.getLast? = some lineFeed) (hline : lineFeed ∉ line)
    (hbehind : behind = [] ∨ behind.head? = some lineFeed)
    (hne : decodeLine (decodeLossy line) ≠ .ok none) :
    check launcher verifier manifest ignored signature ≠ .ok () ∧
    (∀ outcome, decodeLine (decodeLossy line) = .ok (some outcome) → outcome.kind ∉ ignored →
      ∀ r, check launcher verifier manifest ignored signature = .error (.rejected r) →
        r.ignored = false) := by
  -- some line of the whole status is decoded like the one that is given
  obtain ⟨found, hfound, hdecode⟩ := exists_statusLine_between hfront hline hbehind hne
  constructor
  · intro hok
    cases (check_eq_iff_classified hends).1 hok with
    | verified wellFormed quiet _ =>
        obtain ⟨outcome, houtcome⟩ := wellFormed found hfound
        cases outcome with
        | none => exact hne (hdecode ▸ houtcome)
        | some outcome =>
            have hmem := mem_outcomes hfound houtcome
            rw [quiet] at hmem
            cases hmem
  · intro outcome houtcome hkind r hr
    have hmem := mem_outcomes hfound (hdecode.trans houtcome)
    cases (check_eq_iff_classified hends).1 hr with
    | reported _ _ tells =>
        rw [← Bool.not_eq_true]
        exact fun hignored => hkind (tells.ignored_iff.1 hignored outcome hmem)
    | failed => rfl

/-- A bad signature between broken octets and an expired key, which alone would be ignored. -/
theorem check_statusLine_visible_badSig :
    check ⟨3, fun _ => .ended 0 ([0xE2, 0x82, 0x0A] ++ Utf8.encode "x BADSIG k n".toList ++
          Utf8.encode "\n[GNUPG:] KEYEXPIRED 17\n".toList) (some 0)⟩ { keyring := "ring" } "m"
        [.keyExpired] "s" ≠ .ok () ∧
      ∀ r, check ⟨3, fun _ => .ended 0 ([0xE2, 0x82, 0x0A] ++ Utf8.encode "x BADSIG k n".toList ++
          Utf8.encode "\n[GNUPG:] KEYEXPIRED 17\n".toList) (some 0)⟩ { keyring := "ring" } "m"
        [.keyExpired] "s" = .error (.rejected r) → r.ignored = false := by
  have hends : ({ keyring := "ring" } : Verifier).Ends
      ⟨3, fun _ => .ended 0 ([0xE2, 0x82, 0x0A] ++ Utf8.encode "x BADSIG k n".toList ++
        Utf8.encode "\n[GNUPG:] KEYEXPIRED 17\n".toList) (some 0)⟩ "m" "s"
      ([0xE2, 0x82, 0x0A] ++ Utf8.encode "x BADSIG k n".toList ++
        Utf8.encode "\n[GNUPG:] KEYEXPIRED 17\n".toList) (some 0) := ⟨0, rfl, nofun⟩
  have h := check_statusLine_visible _ _ "m" "s" [.keyExpired] _ _ _ _ hends (Or.inr rfl)
    (by decide) (Or.inr rfl) nofun
  exact ⟨h.1, h.2 ⟨.badSig, [.text "k", .text "n"], ⟨rfl, rfl, trivial⟩⟩ rfl (by decide)⟩

end SigVerdict.Signature
