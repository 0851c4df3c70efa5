import Mathlib.Data.List.Forall2
import SigVerdict.CommandLine.Program
import SigVerdict.Proofs.Checker
import SigVerdict.Proofs.CommandLine.Arguments
import SigVerdict.Proofs.Settings.Layers

set_option autoImplicit false

/-! # The exit code of a verification

Other programs learn the verdict from the exit code. It is zero when the settings disable the
verification, or when they can be followed together with the command line, all files can be read,
and the runs over the signatures give what is required (`Vouched`). Each part of the program hands
on the exit code of the next, so the proof goes through the parts from the last to the first. -/

namespace SigVerdict.CommandLine

open Gpg Signature Status Text
open Text.Utf8 (decodeLossy encode)

/-! ## What is asked for -/

/-- A checker does what the settings and the command line say together. The options of the command
    line take the place of settings, except that further codes are ignored. -/
structure Effective (s : Settings) (a : VerifyArguments) (c : Checker) : Prop where
  executable : c.verifier.executable = a.executable.getD s.executable
  keyring : a.keyring.or s.keyring = some c.verifier.keyring
  timeout : c.verifier.timeout = a.timeout.or s.timeout
  requirement : Requirement.read (a.requiredCount.getD s.requiredCount).toList = .ok c.requirement
  ignored : s.ignoredCodes ++ a.ignoredCodes = c.ignored.map Kind.keyword

/-- The program vouches for signatures: there is a checker that does what is said, the files hold
    texts, and the runs over these texts give what the checker requires. -/
def Vouched (w : World) (s : Settings) (a : VerifyArguments) : Prop :=
  ∃ c texts, Effective s a c ∧
    List.Forall₂ (fun file text => w.readText (.ofText file) = .ok text) a.signatures texts ∧
    c.Accepts w.launcher a.manifest texts

theorem ofSettings_applyTo_eq_ok_iff {s : Settings} {a : VerifyArguments} {c : Checker} :
    Checker.ofSettings (a.applyTo s) = .ok c ↔ Effective s a c := by
  rw [Checker.ofSettings_eq_ok_iff]
  exact ⟨fun h => ⟨h.executable, h.keyring, h.timeout, h.requirement, h.ignored⟩,
    fun h => ⟨h.executable, h.keyring, h.timeout, h.requirement, h.ignored⟩⟩

theorem readTexts_eq_ok_iff {w : World} {files texts : List String} :
    readTexts w files = .ok texts ↔
      List.Forall₂ (fun file text => w.readText (.ofText file) = .ok text) files texts := by
  induction files generalizing texts with
  | nil =>
      rw [readTexts, Except.ok.injEq]
      constructor
      · rintro rfl
        exact .nil
      · rintro ⟨⟩
        rfl
  | cons file files ih =>
      rw [readTexts]
      cases hfile : w.readText (.ofText file) with
      | error cause =>
          refine ⟨nofun, ?_⟩
          rintro (_ | ⟨hok, _⟩)
          cases hfile.symm.trans hok
      | ok text =>
          rw [map_eq_ok_iff]
          constructor
          · rintro ⟨rest, hrest, rfl⟩
            exact .cons hfile (ih.1 hrest)
          · rintro (_ | ⟨hok, hrest⟩)
            cases hfile.symm.trans hok
            exact ⟨_, ih.2 hrest, rfl⟩

/-! ## Exit codes -/

/-- A run of the program says whether something holds, by exit code zero if it does and by exit code
    one if it does not. -/
def Transcript.Answers (t : Transcript) (P : Prop) : Prop :=
  (P ∧ t.exit = 0) ∨ (¬P ∧ t.exit = 1)

variable (w : World) (console : Console)

theorem verifyTexts_answers (c : Checker) (a : VerifyArguments) (texts : List String) :
    (verifyTexts w console c a texts).Answers (∃ report,
      c.verify w.launcher ⟨a.collectionName, a.manifest, texts⟩ = .ok report ∧
        report.verified = true) := by
  unfold verifyTexts
  cases hreport : c.verify w.launcher ⟨a.collectionName, a.manifest, texts⟩ with
  | error fault => exact Or.inr ⟨nofun, rfl⟩
  | ok report =>
      by_cases hverified : report.verified = true
      · exact Or.inl ⟨⟨report, rfl, hverified⟩, if_pos hverified⟩
      · refine Or.inr ⟨?_, if_neg hverified⟩
        rintro ⟨_, ⟨⟩, h⟩
        exact hverified h

/-- The command says whether the verification is disabled or the program vouches for all that is
    required. -/
theorem runVerify_answers (s : Settings) (a : VerifyArguments) (hne : a.signatures ≠ []) :
    (runVerify w console s a).Answers (s.disabled = true ∨ Vouched w s a) := by
  unfold runVerify
  split
  · next hdisabled => exact Or.inl ⟨Or.inl hdisabled, rfl⟩
  · next hdisabled =>
      have hiff : s.disabled = true ∨ Vouched w s a ↔ Vouched w s a :=
        or_iff_right hdisabled
      rw [Transcript.Answers, hiff]
      split
      · next fault hfault =>
          refine Or.inr ⟨?_, rfl⟩
          rintro ⟨c, texts, heffective, -, -⟩
          cases hfault.symm.trans (ofSettings_applyTo_eq_ok_iff.2 heffective)
      · next c hc =>
          split
          · next path cause hfault =>
              refine Or.inr ⟨?_, rfl⟩
              rintro ⟨_, texts, -, htexts, -⟩
              cases hfault.symm.trans (readTexts_eq_ok_iff.2 htexts)
          · next texts htexts =>
              have hsome : texts ≠ [] := by
                rintro rfl
                exact hne (List.forall₂_nil_right_iff.1 (readTexts_eq_ok_iff.1 htexts))
              have hvouched : (∃ report,
                  c.verify w.launcher ⟨a.collectionName, a.manifest, texts⟩ = .ok report ∧
                    report.verified = true) ↔ Vouched w s a := by
                rw [Checker.verified_iff_accepts hsome]
                constructor
                · intro h
                  exact ⟨c, texts, ofSettings_applyTo_eq_ok_iff.1 hc,
                    readTexts_eq_ok_iff.1 htexts, h⟩
                · -- what is said admits no other checker and no other texts
                  rintro ⟨c', texts', hc', htexts', h⟩
                  cases hc.symm.trans (ofSettings_applyTo_eq_ok_iff.2 hc')
                  cases htexts.symm.trans (readTexts_eq_ok_iff.2 htexts')
                  exact h
              rw [← hvouched]
              exact verifyTexts_answers w console c a texts

/-- **The exit code of a verification.** A command line is read as one that asks for a verification
    exactly if it is written as one. Then, when the settings can be loaded, the program exits with
    zero just when the settings disable the verification or it vouches for the signatures; in every
    other case it exits with one. -/
theorem run_verify_exit (w : World) (arguments : List String) (shared : Shared)
    (a : VerifyArguments) :
    (readArguments w.environment arguments = .ok ⟨shared, .verify a⟩ ↔
      AsksToVerify w.environment arguments shared a) ∧
    ∀ s, AsksToVerify w.environment arguments shared a → Settings.load w shared.config = .ok s →
      ((run w arguments).exit = 0 ↔ s.disabled = true ∨ Vouched w s a) ∧
        ((run w arguments).exit = 1 ↔ ¬(s.disabled = true ∨ Vouched w s a)) := by
  refine ⟨readArguments_eq_ok_iff, fun s hasks hload => ?_⟩
  have hexit : (run w arguments).exit = (runVerify w (.ofShared w shared) s a).exit := by
    rw [run, readArguments_eq_ok_iff.2 hasks]
    dsimp only
    rw [runArguments, hload]
    rfl
  rw [hexit]
  rcases runVerify_answers w (.ofShared w shared) s a hasks.signed with ⟨h, hzero⟩ | ⟨h, hone⟩
  · rw [hzero]
    exact ⟨iff_of_true rfl h, iff_of_false nofun fun hno => hno h⟩
  · rw [hone]
    exact ⟨iff_of_false nofun h, iff_of_true rfl h⟩

/-! ## A command line with every option -/

/-- A world where the command `gpg2` needs two seconds and knows no keyring but `r`. It writes the
    signature itself to its status descriptor and ends with the signature's length as its exit code.
    Variables and a file ask for another executable and another keyring, for less time and for more
    good signatures, and for one code to be ignored. -/
def worldOfEchoes : World :=
  { Settings.worldOfFiles
      [ ("GALAXY_GPG_EXECUTABLE", "gpg1"), ("GALAXY_GPG_TIMEOUT", "1"),
        ("ANSIBLE_GALAXY_REQUIRED_VALID_SIGNATURE_COUNT", "2"),
        ("ANSIBLE_GALAXY_IGNORE_SIGNATURE_STATUS_CODES", "NODATA") ]
      [ ("s.toml", "galaxy.gpg_keyring='k'"), ("a", ""), ("b", "[GNUPG:] BADSIG 01 A"),
        ("c", "[GNUPG:] KEYEXPIRED 17"), ("d", "[GNUPG:] NODATA 1") ] with
    launcher := ⟨3, fun c =>
      if c.executable = "gpg2" ∧ "--keyring=r" ∈ c.arguments then
        .ended 2000000000 (encode c.input.toList) (some c.input.length)
      else .ended 0 [] (some 2)⟩ }

/-- What the variables and the file ask for. -/
def echoSettings : Settings :=
  { executable := "gpg1", keyring := some "k", requiredCount := "2",
    timeout := Span.ofSeconds? 1, ignoredCodes := ["NODATA"] }

/-- A command line with every option of the command and every option that all commands share. -/
def everyOption : List String :=
  [ "-vc", "s.toml", "verify", "--manifest=m", "-s", "a", "--signature", "b", "-s=c", "-sd",
    "-k", "r", "--gpg", "gpg2", "--timeout=+3", "--required-valid-signature-count", "+all",
    "--ignore-signature-status-code", "BADSIG", "--ignore-signature-status-code=KEYEXPIRED",
    "--collection", "x.y", "--output=json", "--no-color", "--" ]

/-- What the command line tells all commands. -/
def everyShared : Shared :=
  { verbosity := 1, output := .json, config := some (.ofText "s.toml"), noColor := true }

/-- What the command line tells the command that verifies signatures. -/
def everyArgument : VerifyArguments :=
  { manifest := "m", signatures := ["a", "b", "c", "d"], keyring := some "r",
    collection := some "x.y", requiredCount := some "+all",
    ignoredCodes := ["BADSIG", "KEYEXPIRED"], executable := some "gpg2",
    timeout := Span.ofSeconds? 3 }

/-- The checker that does what the command line and the settings say together. -/
def echoChecker : Checker :=
  ⟨⟨"gpg2", "r", Span.ofSeconds? 3⟩, ⟨true, .all⟩, [.noData, .badSig, .keyExpired]⟩

theorem load_worldOfEchoes :
    Settings.load worldOfEchoes (some (.ofText "s.toml")) = .ok echoSettings := by
  have hfile : Settings.ofToml? "galaxy.gpg_keyring='k'".toList = some { keyring := some "k" } := by
    cbv
  have hholds : Settings.Holds worldOfEchoes (.ofText "s.toml") { keyring := some "k" } :=
    ⟨"galaxy.gpg_keyring='k'", rfl, hfile⟩
  rw [Settings.load_of_holds (Or.inl rfl) hholds]
  rfl

theorem ends_echoChecker (signature : String) :
    echoChecker.verifier.Ends worldOfEchoes.launcher "m" signature (encode signature.toList)
      (some signature.length) := by
  refine ⟨2000000000, rfl, ?_⟩
  rintro _ ⟨⟩
  decide

theorem good_echoChecker : echoChecker.Good worldOfEchoes.launcher "m" "" :=
  ⟨_, ends_echoChecker "", nofun⟩

/-- A signature that is a line with a keyword is a failure for what the line says, which does not
    count when it is to be ignored. -/
theorem concludes_echoChecker {line : String} {outcome : Outcome}
    (hlines : lines (decodeLossy (encode line.toList)) = [line.toList])
    (hline : decodeLine line.toList = .ok (some outcome))
    (hkind : outcome.kind ∈ echoChecker.ignored) :
    echoChecker.Concludes worldOfEchoes.launcher "m" line ∧
      ¬echoChecker.Refused worldOfEchoes.launcher "m" line := by
  have hsaid : outcomes (decodeLossy (encode line.toList)) = [outcome] := by
    rw [outcomes, hlines, List.filterMap_cons_some (b := outcome) (by rw [outcomeOfLine?, hline]),
      List.filterMap_nil]
  constructor
  · refine ⟨_, _, ends_echoChecker line, fun other hother => ⟨outcome, ?_⟩⟩
    rw [hlines, List.mem_singleton] at hother
    rw [hother, hline]
  · rintro ⟨_, _, ⟨_, hstart, -⟩, -, hrefused⟩
    obtain ⟨_, hecho, -⟩ := ends_echoChecker line
    cases hecho.symm.trans hstart
    rw [hsaid] at hrefused
    rcases hrefused with ⟨other, hother, hno⟩ | ⟨hnone, -⟩
    · exact hno (List.mem_singleton.1 hother ▸ hkind)
    · cases hnone

theorem accepts_echoChecker : echoChecker.Accepts worldOfEchoes.launcher "m"
    ["", "[GNUPG:] BADSIG 01 A", "[GNUPG:] KEYEXPIRED 17", "[GNUPG:] NODATA 1"] := by
  have hall : ∀ signature ∈ ["", "[GNUPG:] BADSIG 01 A", "[GNUPG:] KEYEXPIRED 17",
      "[GNUPG:] NODATA 1"], echoChecker.Concludes worldOfEchoes.launcher "m" signature ∧
        ¬echoChecker.Refused worldOfEchoes.launcher "m" signature := by
    simp only [List.forall_mem_cons]
    exact ⟨⟨good_echoChecker.concludes, good_echoChecker.not_refused⟩,
      concludes_echoChecker rfl rfl (by decide), concludes_echoChecker rfl rfl (by decide),
      concludes_echoChecker rfl rfl (by decide), nofun⟩
  refine ⟨?_, nofun, fun _ signature hmem => (hall signature hmem).2,
    fun _ _ => ⟨"", List.mem_cons_self, good_echoChecker⟩⟩
  intro front signature behind heq _
  exact (hall signature (heq ▸ List.mem_append_right _ List.mem_cons_self)).1

/-- What the command line says takes the place of what the variables and the file say, and the codes
    of both are ignored. Under what the variables and the file say alone, no signature is good. -/
theorem run_verify_exit_everyOption :
    AsksToVerify worldOfEchoes.environment everyOption everyShared everyArgument ∧
      (run worldOfEchoes everyOption).exit = 0 := by
  obtain ⟨hread, hexit⟩ := run_verify_exit worldOfEchoes everyOption everyShared everyArgument
  have hasks := hread.1 rfl
  refine ⟨hasks, (hexit _ hasks load_worldOfEchoes).1.2 (Or.inr ⟨echoChecker, _, ?_, ?_,
    accepts_echoChecker⟩)⟩
  · exact ⟨rfl, rfl, rfl, rfl, rfl⟩
  · exact .cons rfl (.cons rfl (.cons rfl (.cons rfl .nil)))

end SigVerdict.CommandLine
