import Mathlib.Data.Set.List
import SigVerdict.Proofs.Checker

set_option autoImplicit false

/-! # What keeps settings from having a checker

The settings of a checker are looked at in a fixed order: the keyring, then how many signatures are
required, then the codes to ignore, of which the first unknown one counts. The first of these that
is wrong is the one reported (`Checker.RefusedFor`), whatever is wrong behind it. -/

namespace SigVerdict

open Gpg Signature Status

namespace Settings

theorem requirement_eq_error_iff {s : Settings} {fault : Fault} :
    s.requirement = .error fault ↔ ∃ cause,
      Requirement.read s.requiredCount.toList = .error cause ∧
        Fault.invalidCount s.requiredCount cause.message = fault := by
  rw [requirement, readRequirement, mapError_eq_error_iff]

/-- Some codes are the keywords of some kinds when each of them is the keyword of a kind. -/
theorem exists_keywords_iff {codes : List String} :
    (∃ kinds : List Kind, codes = kinds.map Kind.keyword) ↔
      ∀ code ∈ codes, ∃ kind : Kind, kind.keyword = code := by
  have h := congrArg (codes ∈ ·) (Set.range_list_map Kind.keyword)
  simpa [eq_comm] using h

end Settings

namespace Checker

variable {s : Settings} {c : Checker} {fault : Fault}

/-- What some settings are refused for. Each case says that what is looked at before is right. -/
inductive RefusedFor (s : Settings) : Fault → Prop where
  | keyring (hkeyring : s.keyring = none) : RefusedFor s .missingKeyring
  | count {keyring : String} {cause : CountFault} (hkeyring : s.keyring = some keyring)
      (hcount : Requirement.read s.requiredCount.toList = .error cause) :
      RefusedFor s (.invalidCount s.requiredCount cause.message)
  | code {keyring : String} {requirement : Requirement} {kinds : List Kind} {code : String}
      {rest : List String} (hkeyring : s.keyring = some keyring)
      (hcount : Writes s.requiredCount.toList requirement)
      (hcodes : s.ignoredCodes = kinds.map Kind.keyword ++ code :: rest)
      (hunknown : ∀ kind : Kind, kind.keyword ≠ code) : RefusedFor s (.unknownStatusCode code)

theorem verifierOf_eq_error_iff :
    verifierOf s = .error fault ↔ s.keyring = none ∧ fault = .missingKeyring := by
  cases hkeyring : s.keyring with
  | none => simp [verifierOf, hkeyring, eq_comm]
  | some keyring => simp [verifierOf, hkeyring]

/-- Settings are refused for the first thing that is wrong with them. -/
theorem ofSettings_eq_error_iff : ofSettings s = .error fault ↔ RefusedFor s fault := by
  rw [ofSettings, bind_eq_error_iff, verifierOf_eq_error_iff]
  constructor
  · rintro (⟨hkeyring, rfl⟩ | ⟨verifier, hverifier, h⟩)
    · exact .keyring hkeyring
    have hkeyring := (verifierOf_eq_ok_iff.1 hverifier).1
    rcases bind_eq_error_iff.1 h with h | ⟨requirement, hrequirement, h⟩
    · obtain ⟨cause, hcount, rfl⟩ := Settings.requirement_eq_error_iff.1 h
      exact .count hkeyring hcount
    rcases bind_eq_error_iff.1 h with h | ⟨ignored, -, h⟩
    · obtain ⟨kinds, code, rest, hcodes, hunknown, rfl⟩ := Settings.readKinds_eq_error_iff.1 h
      exact .code hkeyring (Settings.readRequirement_eq_ok_iff_writes.1 hrequirement) hcodes
        hunknown
    · cases h
  · intro h
    cases h with
    | keyring hkeyring => exact Or.inl ⟨hkeyring, rfl⟩
    | @count keyring cause hkeyring hcount =>
        refine Or.inr ⟨⟨s.executable, keyring, s.timeout⟩, ?_, ?_⟩
        · exact verifierOf_eq_ok_iff.2 ⟨hkeyring, rfl, rfl⟩
        · exact bind_eq_error_iff.2 (Or.inl
            (Settings.requirement_eq_error_iff.2 ⟨cause, hcount, rfl⟩))
    | @code keyring requirement kinds code rest hkeyring hcount hcodes hunknown =>
        have hrequirement : s.requirement = .ok requirement :=
          Settings.readRequirement_eq_ok_iff_writes.2 hcount
        have hignored : s.ignoredKinds = .error (.unknownStatusCode code) :=
          Settings.readKinds_eq_error_iff.2 ⟨kinds, code, rest, hcodes, hunknown, rfl⟩
        refine Or.inr ⟨⟨s.executable, keyring, s.timeout⟩, ?_, ?_⟩
        · exact verifierOf_eq_ok_iff.2 ⟨hkeyring, rfl, rfl⟩
        · rw [hrequirement, hignored]
          rfl

/-- Settings have a checker when they name a keyring, write a requirement and ignore codes that are
    all known. -/
theorem exists_follows_iff :
    (∃ c : Checker, c.Follows s) ↔
      (∃ keyring, s.keyring = some keyring) ∧
        (∃ requirement, Writes s.requiredCount.toList requirement) ∧
          ∀ code ∈ s.ignoredCodes, ∃ kind : Kind, kind.keyword = code := by
  rw [← Settings.exists_keywords_iff]
  constructor
  · rintro ⟨c, h⟩
    exact ⟨⟨_, h.keyring⟩, ⟨_, Requirement.read_eq_ok_iff.1 h.requirement⟩, ⟨_, h.ignored⟩⟩
  · rintro ⟨⟨keyring, hkeyring⟩, ⟨requirement, hrequirement⟩, kinds, hkinds⟩
    exact ⟨⟨⟨s.executable, keyring, s.timeout⟩, requirement, kinds⟩, rfl, hkeyring, rfl,
      Requirement.read_eq_ok_iff.2 hrequirement, hkinds⟩

/-- **Settings are validated in a fixed order.** They have a checker exactly when they name a
    keyring, their count writes a requirement and every code to ignore is the keyword of a kind; the
    checker then does what they say. Otherwise the keyring is looked at first, the count next and
    the codes last and in their order, and what is found wrong first is reported. Whether
    verification is disabled and how much is logged makes no difference. -/
theorem ofSettings_validates (s : Settings) :
    ((∃ c, ofSettings s = .ok c) ↔
      (∃ keyring, s.keyring = some keyring) ∧
        (∃ requirement, Writes s.requiredCount.toList requirement) ∧
          ∀ code ∈ s.ignoredCodes, ∃ kind : Kind, kind.keyword = code) ∧
    (∀ c, ofSettings s = .ok c ↔ c.Follows s) ∧
    (∀ fault, ofSettings s = .error fault ↔ RefusedFor s fault) ∧
    ∀ disabled logLevel, ofSettings { s with disabled, logLevel } = ofSettings s := by
  refine ⟨?_, fun c => ofSettings_eq_ok_iff, fun fault => ofSettings_eq_error_iff, ?_⟩
  · rw [← exists_follows_iff]
    exact exists_congr fun c => ofSettings_eq_ok_iff
  · intro disabled logLevel
    rfl

/-- The first of two unknown codes is reported; and if the keyring is missing too, nothing else. -/
theorem ofSettings_validates_twoFaults :
    ofSettings
        { keyring := some "ring", requiredCount := "+2",
          ignoredCodes := ["KEYEXPIRED", "NOSUCH", "NONE"] } =
      .error (.unknownStatusCode "NOSUCH") ∧
    ofSettings { requiredCount := "0", ignoredCodes := ["NOSUCH"] } = .error .missingKeyring := by
  constructor
  · obtain ⟨-, -, herror, -⟩ := ofSettings_validates
      { keyring := some "ring", requiredCount := "+2",
        ignoredCodes := ["KEYEXPIRED", "NOSUCH", "NONE"] }
    have hcount : Writes "+2".toList ⟨true, .count ⟨2, by decide, by decide⟩⟩ :=
      Requirement.read_eq_ok_iff.1 (by decide)
    have hcodes : ["KEYEXPIRED", "NOSUCH", "NONE"] =
        [Kind.keyExpired].map Kind.keyword ++ "NOSUCH" :: ["NONE"] := rfl
    have hunknown : ∀ kind : Kind, kind.keyword ≠ "NOSUCH" := by
      intro kind
      cases kind <;> decide
    exact (herror _).2 (.code rfl hcount hcodes hunknown)
  · exact ((ofSettings_validates _).2.2.1 _).2 (.keyring rfl)

end Checker

end SigVerdict
