import Mathlib.Data.Option.Basic
import SigVerdict.Proofs.Settings.Load

set_option autoImplicit false

/-! # What a text says of the settings

A text says settings in the format of its file (`Format.Says`): its value has sections, the sections
have fields, and what stands under the name of a field is read as a setting. Whatever is missing, a
field or a whole section, leaves the settings at their standard values (`Gives`, `Finds`). Reading a
text gives settings exactly when the text says them (`Format.read?_eq_some_iff`), whatever the
format. -/

namespace SigVerdict.Settings

variable {ν α : Type} {r : Reading ν} {value : ν} {s : Settings} {cs : List Char}

/-! ## What is found -/

/-- A setting is what the value found for its field is read as; if none is found, it is standard. -/
inductive Gives (read? : ν → Option α) (standard : α) : Option ν → α → Prop where
  | missing : Gives read? standard none standard
  | found {value : ν} {x : α} (h : read? value = some x) : Gives read? standard (some value) x

/-- The values found for the declared fields of a section, in order. A section that is missing has
    none of them. -/
inductive Finds (r : Reading ν) (declared : List String) : Option ν → List (Option ν) → Prop where
  | missing : Finds r declared none (declared.map fun _ => none)
  | found {value : ν} {values : List (Option ν)} (h : r.fields? declared value = some values) :
      Finds r declared (some value) values

/-- What is found for the fields of a verification gives its settings. -/
structure VerificationGives (r : Reading ν)
    (executable keyring timeout count codes disabled : Option ν) (s : Settings) : Prop where
  executable : Gives r.text? "gpg" executable s.executable
  keyring : Gives r.optionalText? none keyring s.keyring
  timeout : Gives (readSpan? r) none timeout s.timeout
  requiredCount : Gives r.text? "1" count s.requiredCount
  ignoredCodes : Gives r.texts? [] codes s.ignoredCodes
  disabled : Gives r.flag? false disabled s.disabled

/-- A value says settings: those of a verification are in one section, that of the log is in
    another. -/
inductive Says (r : Reading ν) (value : ν) (s : Settings) : Prop where
  | intro {verification logging executable keyring timeout count codes disabled level : Option ν}
      (hsections : r.fields? sections value = some [verification, logging])
      (hverification : Finds r verificationFields verification
        [executable, keyring, timeout, count, codes, disabled])
      (hgives : VerificationGives r executable keyring timeout count codes disabled s)
      (hlogging : Finds r loggingFields logging [level])
      (hlevel : Gives r.text? "warn" level s.logLevel)

theorem readField_eq_some_iff {read? : ν → Option α} {standard x : α} {found : Option ν} :
    readField read? standard found = some x ↔ Gives read? standard found x := by
  cases found with
  | none =>
      rw [readField, Option.some.injEq]
      constructor
      · rintro rfl
        exact .missing
      · rintro ⟨⟩
        rfl
  | some value =>
      constructor
      · exact fun h => .found h
      · rintro (_ | h)
        exact h

/-- The section of a verification does not say at which level the log is written. -/
theorem readVerification?_eq_some_iff :
    readVerification? r value = some s ↔
      ∃ executable keyring timeout count codes disabled,
        r.fields? verificationFields value =
          some [executable, keyring, timeout, count, codes, disabled] ∧
        VerificationGives r executable keyring timeout count codes disabled s ∧
        s.logLevel = "warn" := by
  constructor
  · intro h
    obtain ⟨found, hfound, h⟩ := Option.bind_eq_some_iff.1 h
    split at h
    · next executable keyring timeout count codes disabled =>
        simp only [bind, Option.bind_eq_some_iff, readField_eq_some_iff, Option.some.injEq] at h
        obtain ⟨e, he, k, hk, t, ht, c, hc, i, hi, d, hd, rfl⟩ := h
        exact ⟨_, _, _, _, _, _, hfound, ⟨he, hk, ht, hc, hi, hd⟩, rfl⟩
    · cases h
  · rintro ⟨executable, keyring, timeout, count, codes, disabled, hfound, hgives, hlevel⟩
    obtain ⟨he, hk, ht, hc, hi, hd⟩ := hgives
    rw [readVerification?, hfound]
    simp only [bind, Option.bind_some, standard, readField_eq_some_iff.2 he,
      readField_eq_some_iff.2 hk, readField_eq_some_iff.2 ht, readField_eq_some_iff.2 hc,
      readField_eq_some_iff.2 hi, readField_eq_some_iff.2 hd]
    rw [← hlevel]

theorem readLogging?_eq_some_iff {level : String} :
    readLogging? r value = some level ↔
      ∃ found, r.fields? loggingFields value = some [found] ∧ Gives r.text? "warn" found level := by
  constructor
  · intro h
    obtain ⟨found, hfound, h⟩ := Option.bind_eq_some_iff.1 h
    split at h
    · exact ⟨_, hfound, readField_eq_some_iff.1 h⟩
    · cases h
  · rintro ⟨found, hfound, hgives⟩
    rw [readLogging?, hfound]
    exact readField_eq_some_iff.2 hgives

theorem verificationGives_of_missing :
    VerificationGives r none none none none none none standard :=
  ⟨.missing, .missing, .missing, .missing, .missing, .missing⟩

/-- Where nothing is found, the settings are standard. -/
theorem eq_standard_of_missing (h : VerificationGives r none none none none none none s)
    (hlevel : s.logLevel = "warn") : s = standard := by
  obtain ⟨he, hk, ht, hc, hi, hd⟩ := h
  cases s
  cases he
  cases hk
  cases ht
  cases hc
  cases hi
  cases hd
  cases hlevel
  rfl

/-- A section of a verification that is missing is like one without fields. -/
theorem gives_verification_iff {verification : Option ν} :
    Gives (readVerification? r) standard verification s ↔
      ∃ executable keyring timeout count codes disabled,
        Finds r verificationFields verification
          [executable, keyring, timeout, count, codes, disabled] ∧
        VerificationGives r executable keyring timeout count codes disabled s ∧
        s.logLevel = "warn" := by
  constructor
  · rintro (_ | h)
    · exact ⟨_, _, _, _, _, _, .missing, verificationGives_of_missing, rfl⟩
    · obtain ⟨_, _, _, _, _, _, hfound, hgives⟩ := readVerification?_eq_some_iff.1 h
      exact ⟨_, _, _, _, _, _, .found hfound, hgives⟩
  · rintro ⟨_, _, _, _, _, _, _ | hfound, hgives⟩
    · rw [eq_standard_of_missing hgives.1 hgives.2]
      exact .missing
    · exact .found (readVerification?_eq_some_iff.2 ⟨_, _, _, _, _, _, hfound, hgives⟩)

/-- A section of the log that is missing is like one without fields. -/
theorem gives_logging_iff {logging : Option ν} {level : String} :
    Gives (readLogging? r) standard.logLevel logging level ↔
      ∃ found, Finds r loggingFields logging [found] ∧ Gives r.text? "warn" found level := by
  constructor
  · rintro (_ | h)
    · exact ⟨_, .missing, .missing⟩
    · obtain ⟨_, hfound, hgives⟩ := readLogging?_eq_some_iff.1 h
      exact ⟨_, .found hfound, hgives⟩
  · rintro ⟨_, _ | hfound, hgives⟩
    · cases hgives
      exact .missing
    · exact .found (readLogging?_eq_some_iff.2 ⟨_, hfound, hgives⟩)

/-- A value is read as settings exactly when it says them. -/
theorem read?_eq_some_iff : read? r value = some s ↔ Says r value s := by
  constructor
  · intro h
    obtain ⟨found, hfound, h⟩ := Option.bind_eq_some_iff.1 h
    split at h
    · simp only [bind, Option.bind_eq_some_iff, readField_eq_some_iff, Option.some.injEq] at h
      obtain ⟨below, hbelow, level, hlevel, rfl⟩ := h
      obtain ⟨_, _, _, _, _, _, hverification, hgives, -⟩ := gives_verification_iff.1 hbelow
      obtain ⟨_, hlogging, hlevel⟩ := gives_logging_iff.1 hlevel
      obtain ⟨he, hk, ht, hc, hi, hd⟩ := hgives
      exact ⟨hfound, hverification, ⟨he, hk, ht, hc, hi, hd⟩, hlogging, hlevel⟩
    · cases h
  · rintro ⟨hsections, hverification, ⟨he, hk, ht, hc, hi, hd⟩, hlogging, hlevel⟩
    -- what the two sections give is put together
    have hbelow : Gives (readVerification? r) standard _ { s with logLevel := "warn" } :=
      gives_verification_iff.2
        ⟨_, _, _, _, _, _, hverification, ⟨he, hk, ht, hc, hi, hd⟩, rfl⟩
    have hlevel := gives_logging_iff.2 ⟨_, hlogging, hlevel⟩
    rw [read?, hsections]
    simp only [bind, Option.bind_some, readField_eq_some_iff.2 hbelow,
      readField_eq_some_iff.2 hlevel]

/-! ## Formats -/

/-- A text says settings in JSON. -/
def SaysInJson (cs : List Char) (s : Settings) : Prop :=
  ∃ value, Json.parse? cs = some value ∧ Says Json.reading value s

/-- A text says settings in TOML. -/
def SaysInToml (cs : List Char) (s : Settings) : Prop :=
  ∃ value, Toml.parse? cs = some value ∧ Says Toml.reading value s

/-- A text says settings in YAML. Without a document in it, they are standard. -/
def SaysInYaml (cs : List Char) (s : Settings) : Prop :=
  Yaml.parse? cs = some none ∧ s = standard ∨
    ∃ g, Yaml.parse? cs = some (some g) ∧ Says g.reading g.root s

/-- A text says settings in a format. -/
def Format.Says : Format → List Char → Settings → Prop
  | .json, cs, s => SaysInJson cs s
  | .toml, cs, s => SaysInToml cs s
  | .yaml, cs, s => SaysInYaml cs s
  | .unknown, cs, s => SaysInToml cs s ∨ (∀ t, ¬SaysInToml cs t) ∧ SaysInYaml cs s

theorem ofJson?_eq_some_iff : ofJson? cs = some s ↔ SaysInJson cs s := by
  simp only [ofJson?, SaysInJson, Option.bind_eq_some_iff, read?_eq_some_iff]

theorem ofToml?_eq_some_iff : ofToml? cs = some s ↔ SaysInToml cs s := by
  simp only [ofToml?, SaysInToml, Option.bind_eq_some_iff, read?_eq_some_iff]

theorem ofYaml?_eq_some_iff : ofYaml? cs = some s ↔ SaysInYaml cs s := by
  simp only [ofYaml?, SaysInYaml, ← read?_eq_some_iff]
  cases hparse : Yaml.parse? cs with
  | none => simp
  | some found =>
      cases found with
      | none => simp [eq_comm]
      | some g => simp

/-- A text is read as settings exactly when it says them in its format. -/
theorem Format.read?_eq_some_iff {format : Format} :
    format.read? cs = some s ↔ format.Says cs s := by
  cases format with
  | json => exact ofJson?_eq_some_iff
  | toml => exact ofToml?_eq_some_iff
  | yaml => exact ofYaml?_eq_some_iff
  | unknown =>
      simp only [Format.read?, Format.Says, Option.or_eq_some_iff, ofToml?_eq_some_iff,
        ofYaml?_eq_some_iff, Option.eq_none_iff_forall_ne_some, ne_eq]

end SigVerdict.Settings
