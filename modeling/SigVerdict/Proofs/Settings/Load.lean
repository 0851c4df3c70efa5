import SigVerdict.Settings.Load

set_option autoImplicit false

/-! # Loading from a named file

A file that is named takes the place of all standard ones. What is loaded then depends on what this
one path leads to and on the variables that set single settings, and on nothing else
(`load_named`): not on any other file, nor on how the file was named. If it is missing or does not
hold settings, this is a fault, and nothing stands in for it. -/

namespace SigVerdict

/-- Whether a variable is a text, and which, depends on this variable alone. -/
theorem World.text?_congr {w w' : World} {name : String}
    (h : w'.environment name = w.environment name) : w'.text? name = w.text? name := by
  rw [World.text?, World.text?, h]

namespace Settings

variable {w w' : World} {path : FilePath} {explicit : Option FilePath}

/-! ## One file -/

/-- A file holds settings: its text can be read, and says them in the format of the file's name. -/
def Holds (w : World) (path : FilePath) (s : Settings) : Prop :=
  ∃ text, w.readText path = .ok text ∧
    (Format.ofExtension path.extension).read? text.toList = some s

/-- Why a file does not hold settings. -/
inductive Fails (w : World) (path : FilePath) : SettingsFault → Prop where
  | unreadable {cause : SystemFault} (h : w.readText path = .error cause) :
      Fails w path (.unreadable path cause)
  | malformed {text : String} (h : w.readText path = .ok text)
      (hread : (Format.ofExtension path.extension).read? text.toList = none) :
      Fails w path (.malformed path)

theorem readFile_of_holds {s : Settings} (h : Holds w path s) : readFile w path = .ok s := by
  obtain ⟨text, htext, hread⟩ := h
  simp only [readFile, htext, hread]

theorem readFile_of_fails {fault : SettingsFault} (h : Fails w path fault) :
    readFile w path = .error fault := by
  cases h with
  | unreadable h => simp only [readFile, h]
  | malformed h hread => simp only [readFile, h, hread]

theorem holds_or_fails (w : World) (path : FilePath) :
    (∃ s, Holds w path s) ∨ ∃ fault, Fails w path fault := by
  cases htext : w.readText path with
  | error cause => exact Or.inr ⟨_, .unreadable htext⟩
  | ok text =>
      cases hread : (Format.ofExtension path.extension).read? text.toList with
      | none => exact Or.inr ⟨_, .malformed htext hread⟩
      | some s => exact Or.inl ⟨s, text, htext, hread⟩

theorem isThere_of_holds {s : Settings} (h : Holds w path s) : (w.look path).isThere = true := by
  obtain ⟨text, htext, -⟩ := h
  rw [World.readText] at htext
  cases hlook : w.look path with
  | absent cause =>
      rw [hlook] at htext
      cases htext
  | unreadable cause => rfl
  | content octets => rfl

/-- What a file holds depends on what its path leads to. -/
theorem readFile_congr (h : w'.look path = w.look path) : readFile w' path = readFile w path := by
  simp only [readFile, World.readText, h]

/-! ## Variables -/

/-- The variable that names a file. -/
def nameVariable : String := "GALAXY_GPG_CONFIG"

/-- Two worlds have the same variables, but for the one that names a file. -/
def SameVariables (w w' : World) : Prop :=
  ∀ name, name ≠ nameVariable → w'.environment name = w.environment name

theorem withTimeout_congr (h : SameVariables w w') (s : Settings) :
    withTimeout w' s = withTimeout w s := by
  rw [withTimeout, withTimeout, World.text?_congr (h _ (by decide))]

theorem withVariables_congr (h : SameVariables w w') : withVariables w' = withVariables w := by
  funext s
  have htext : ∀ name, name ≠ nameVariable → w'.text? name = w.text? name :=
    fun name hname => World.text?_congr (h name hname)
  unfold withVariables
  rw [htext "GALAXY_GPG_EXECUTABLE" (by decide), htext "ANSIBLE_GALAXY_GPG_KEYRING" (by decide),
    htext "ANSIBLE_GALAXY_REQUIRED_VALID_SIGNATURE_COUNT" (by decide),
    htext "ANSIBLE_GALAXY_IGNORE_SIGNATURE_STATUS_CODES" (by decide),
    htext "ANSIBLE_GALAXY_DISABLE_GPG_VERIFY" (by decide),
    htext "GALAXY_GPG_LOG_LEVEL" (by decide)]

theorem load_of_ofFiles {s : Settings} (h : ofFiles w explicit = .ok s) :
    load w explicit = (withTimeout w s).map (withVariables w) := by
  simp only [load, h]

/-- Variables do not mend what is wrong with files. -/
theorem load_of_ofFiles_fault {fault : SettingsFault} (h : ofFiles w explicit = .error fault) :
    load w explicit = .error fault := by
  simp only [load, h]

/-! ## A named file -/

/-- A path is named: it is given, or nothing is given and the variable holds its octets. -/
def Names (w : World) (explicit : Option FilePath) (path : FilePath) : Prop :=
  explicit = some path ∨ explicit = none ∧ w.environment nameVariable = some path.octets

theorem named?_of_names (h : Names w explicit path) : named? w explicit = some path := by
  rcases h with rfl | ⟨rfl, h⟩
  · rfl
  · rw [nameVariable] at h
    rw [named?, h]
    rfl

theorem ofFiles_of_names (h : Names w explicit path) :
    ofFiles w explicit =
      if (w.look path).isThere then (readFile w path).map standard.merge
      else .error (.notFound path) := by
  simp only [ofFiles, named?_of_names h, ofFile, layFile]

/-- What is loaded when a named file holds settings. -/
theorem load_of_holds (hnamed : Names w explicit path) {file : Settings} (h : Holds w path file) :
    load w explicit = (withTimeout w (standard.merge file)).map (withVariables w) := by
  have hfiles := ofFiles_of_names hnamed
  rw [if_pos (isThere_of_holds h), readFile_of_holds h] at hfiles
  exact load_of_ofFiles hfiles

/-- **A named file is the only one.** Two worlds in which the same path is named, and leads to the
    same, and which have the same variables but for the one that names a file, load the same,
    whatever else they hold. A path that leads nowhere, or to what does not hold settings, is a
    fault; and whatever is loaded comes from settings that the file holds. -/
theorem load_named (w : World) (explicit : Option FilePath) (path : FilePath)
    (hnamed : Names w explicit path) :
    (∀ w' explicit', Names w' explicit' path → SameVariables w w' → w'.look path = w.look path →
      load w' explicit' = load w explicit) ∧
    ((w.look path).isThere = false → load w explicit = .error (.notFound path)) ∧
    (∀ fault, (w.look path).isThere = true → Fails w path fault →
      load w explicit = .error fault) ∧
    ∀ s, load w explicit = .ok s ↔ ∃ file, Holds w path file ∧
      (withTimeout w (standard.merge file)).map (withVariables w) = .ok s := by
  have hfiles := ofFiles_of_names hnamed
  have hmissing : (w.look path).isThere = false → load w explicit = .error (.notFound path) := by
    intro hmissing
    rw [hmissing] at hfiles
    exact load_of_ofFiles_fault hfiles
  have hfault : ∀ fault, (w.look path).isThere = true → Fails w path fault →
      load w explicit = .error fault := by
    intro fault hthere hfails
    rw [if_pos hthere, readFile_of_fails hfails] at hfiles
    exact load_of_ofFiles_fault hfiles
  refine ⟨?_, hmissing, hfault, fun s => ⟨fun hload => ?_, ?_⟩⟩
  · intro w' explicit' hnamed' hvariables hlook
    have hfiles' := ofFiles_of_names hnamed'
    rw [hlook, readFile_congr hlook, ← hfiles] at hfiles'
    simp only [load, hfiles', withTimeout_congr hvariables, withVariables_congr hvariables]
  · rcases holds_or_fails w path with ⟨file, hholds⟩ | ⟨fault, hfails⟩
    · exact ⟨file, hholds, (load_of_holds hnamed hholds).symm.trans hload⟩
    · cases hthere : (w.look path).isThere with
      | false => cases (hmissing hthere).symm.trans hload
      | true => cases (hfault fault hthere hfails).symm.trans hload
  · rintro ⟨file, hholds, hs⟩
    exact (load_of_holds hnamed hholds).trans hs

/-- A path that is no text, but has an extension that is one. -/
def oddPath : FilePath := ⟨0xFF :: Text.Utf8.encode ".json".toList⟩

/-- A world with settings where the odd path leads, and with the same thing wherever else one
    looks. -/
def worldOfOddPath (named : List UInt8) (elsewhere : Found) : World where
  environment name := if name = nameVariable then some named else none
  look path :=
    if path = oddPath then .content (Text.Utf8.encode "[[],[\"info\"]]".toList) else elsewhere
  input := []
  launcher := ⟨3, fun _ => .ended 0 [] (some 0)⟩

/-- It does not matter whether the path is in the variable, with malformed files elsewhere, or is
    given, with the variable leading nowhere. Without it, that variable is what counts. -/
theorem load_named_oddPath :
    load (worldOfOddPath oddPath.octets (.content [0x5B])) none = .ok { logLevel := "info" } ∧
    load (worldOfOddPath [0x6D] (.absent .noSuchFile)) (some oddPath) =
      load (worldOfOddPath oddPath.octets (.content [0x5B])) none ∧
    load (worldOfOddPath [0x6D] (.absent .noSuchFile)) none = .error (.notFound ⟨[0x6D]⟩) := by
  have hvariable : Names (worldOfOddPath oddPath.octets (.content [0x5B])) none oddPath :=
    Or.inr ⟨rfl, rfl⟩
  have hholds : Holds (worldOfOddPath oddPath.octets (.content [0x5B])) oddPath
      { logLevel := "info" } := ⟨_, rfl, rfl⟩
  obtain ⟨hsame, -, -, hload⟩ := load_named _ _ _ hvariable
  refine ⟨(hload _).2 ⟨_, hholds, rfl⟩, ?_, (load_named _ _ _ (Or.inr ⟨rfl, rfl⟩)).2.1 rfl⟩
  refine hsame _ _ (Or.inl rfl) (fun name hname => ?_) rfl
  simp only [worldOfOddPath, if_neg hname]

end Settings

end SigVerdict
