import Mathlib.Algebra.Group.Nat.Defs
import Mathlib.Data.List.Forall2
import SigVerdict.Proofs.Except
import SigVerdict.Proofs.Settings.Load
import SigVerdict.Proofs.Text.Integer
import SigVerdict.Proofs.Text.Utf8

set_option autoImplicit false

/-! # Settings from variables

Seven variables set one setting each. A variable that says a text sets its setting outright, to what
the text means, whatever the files say; the standard value and the empty text are no exceptions, so
that a variable can take back what a file sets. A variable that is missing, or whose octets are no
text, leaves its setting as it is (`FromVariable`). All seven work independently of each other
(`Overrides`), but for one thing: a time limit that is no number of seconds is a fault, and then
nothing is loaded at all (`load_variables`). The verification is disabled by four words that say yes
(`SaysYes`), and every other text enables it. -/

namespace SigVerdict

open Text

/-- A variable says a text: its octets are those of the text. -/
def World.Says (w : World) (name text : String) : Prop :=
  w.environment name = some (Utf8.encode text.toList)

theorem World.text?_eq_some_iff {w : World} {name text : String} :
    w.text? name = some text ↔ w.Says name text := by
  simp only [World.text?, World.Says, Option.bind_eq_some_iff, Option.map_eq_some_iff,
    Utf8.decode?_eq_some_iff]
  constructor
  · rintro ⟨octets, hoctets, cs, rfl, rfl⟩
    rw [hoctets, String.toList_ofList]
  · intro h
    exact ⟨_, h, text.toList, rfl, String.ofList_toList⟩

theorem World.text?_eq_none_iff {w : World} {name : String} :
    w.text? name = none ↔ ∀ text, ¬w.Says name text := by
  simp only [Option.eq_none_iff_forall_ne_some, ne_eq, World.text?_eq_some_iff]

namespace Settings

variable {w : World} {explicit : Option FilePath} {below above : Settings} {text : String}

/-! ## One variable -/

/-- A setting with its variable: a text that the variable says means the value above, and if it says
    none, the value below remains. -/
structure FromVariable {α : Type} (w : World) (name : String) (Means : String → α → Prop)
    (below above : α) : Prop where
  said : ∀ text, w.Says name text → Means text above
  unsaid : (∀ text, ¬w.Says name text) → above = below

/-- The variable of the time limit. -/
def timeoutVariable : String := "GALAXY_GPG_TIMEOUT"

/-- A text means a time limit: between blanks it says a number of whole seconds. -/
def MeansTimeout (text : String) (timeout : Option Span) : Prop :=
  ∃ span, timeout = some span ∧ span.nanos = 0 ∧ SaysNatural (trim text.toList) span.seconds

/-- When each text means a value, a setting with its variable has the meaning of the text that the
    variable says, or else the value below. -/
theorem fromVariable_iff {α : Type} {name : String} (meaning : String → α) {below above : α} :
    FromVariable w name (fun text value => value = meaning text) below above ↔
      above = ((w.text? name).map meaning).getD below := by
  cases htext : w.text? name with
  | none =>
      rw [World.text?_eq_none_iff] at htext
      refine ⟨fun h => h.unsaid htext, fun h => ⟨fun text htold => ?_, fun _ => h⟩⟩
      exact absurd htold (htext text)
  | some said =>
      have hsaid := World.text?_eq_some_iff.1 htext
      refine ⟨fun h => h.said said hsaid, fun h => ⟨fun text htold => ?_, fun hnone => ?_⟩⟩
      · rw [← World.text?_eq_some_iff, htext, Option.some.injEq] at htold
        rw [h, htold]
        rfl
      · exact absurd hsaid (hnone said)

/-! ## The time limit -/

/-- A time limit is read exactly when the text means it. -/
theorem readSeconds_eq_ok_iff {timeout : Option Span} :
    readSeconds text = .ok timeout ↔ MeansTimeout text timeout := by
  unfold readSeconds
  cases hread : readNatural Span.mostSeconds (trim text.toList) with
  | error cause =>
      refine ⟨nofun, ?_⟩
      rintro ⟨span, -, -, htold⟩
      have hok := readNatural_eq_ok_iff.2 ⟨htold, Nat.le_of_lt_succ span.seconds_lt⟩
      cases hread.symm.trans hok
  | ok n =>
      obtain ⟨htold, hle⟩ := readNatural_eq_ok_iff.1 hread
      simp only [Span.ofSeconds?_of_le hle, Except.ok.injEq]
      constructor
      · rintro rfl
        exact ⟨_, rfl, rfl, htold⟩
      · rintro ⟨span, rfl, hnanos, hspan⟩
        have hok := readNatural_eq_ok_iff.2 ⟨hspan, Nat.le_of_lt_succ span.seconds_lt⟩
        cases hread.symm.trans hok
        exact congrArg some (Span.ext rfl hnanos.symm)

theorem readSeconds_fault {fault : SettingsFault} (h : readSeconds text = .error fault) :
    ∃ cause, fault = .badTimeout text cause := by
  unfold readSeconds at h
  split at h
  · next cause hread =>
      cases h
      exact ⟨cause, rfl⟩
  · cases h

/-- Settings with another time limit. -/
def withLimit (s : Settings) (timeout : Option Span) : Settings := { s with timeout }

/-- The variable of the time limit changes the time limit only, and what it says has to mean one. -/
theorem withTimeout_eq_ok_iff :
    withTimeout w below = .ok above ↔
      FromVariable w timeoutVariable MeansTimeout below.timeout above.timeout ∧
        above = below.withLimit above.timeout := by
  unfold withTimeout
  rw [← timeoutVariable]
  cases htext : w.text? timeoutVariable with
  | none =>
      rw [World.text?_eq_none_iff] at htext
      simp only [Except.ok.injEq]
      constructor
      · rintro rfl
        exact ⟨⟨fun text htold => absurd htold (htext text), fun _ => rfl⟩, rfl⟩
      · rintro ⟨hvariable, habove⟩
        rw [habove, hvariable.unsaid htext]
        rfl
  | some said =>
      have hsaid := World.text?_eq_some_iff.1 htext
      simp only [map_eq_ok_iff, readSeconds_eq_ok_iff]
      constructor
      · rintro ⟨timeout, hmeans, rfl⟩
        refine ⟨⟨fun text htold => ?_, fun hnone => absurd hsaid (hnone said)⟩, rfl⟩
        rw [← World.text?_eq_some_iff, htext, Option.some.injEq] at htold
        rwa [← htold]
      · rintro ⟨hvariable, habove⟩
        exact ⟨above.timeout, hvariable.said said hsaid, habove.symm⟩

/-! ## Texts that say yes -/

/-- The words that say yes. -/
def yesWords : List String := ["1", "true", "yes", "on"]

/-- The letters of the words that say yes. -/
def yesLetters : List Char := yesWords.flatMap String.toList

/-- A text says yes: between blanks it is one of the words that do, and each of the word's letters
    may be a capital one. -/
def SaysYes (text : String) : Prop :=
  ∃ word ∈ yesWords, List.Forall₂ (fun c letter => c = letter ∨ c = letter.toUpper)
    (trim text.toList) word.toList

theorem small_eq_iff_of_capital {n : Nat} (hn : n < 26) {letter : Char} (h : letter ∈ yesLetters) :
    Char.ofNat (65 + n + 32) = letter ↔
      Char.ofNat (65 + n) = letter ∨ Char.ofNat (65 + n) = letter.toUpper := by
  have hall : ∀ n < 26, yesLetters.all (fun letter => Char.ofNat (65 + n + 32) = letter ↔
      Char.ofNat (65 + n) = letter ∨ Char.ofNat (65 + n) = letter.toUpper) = true := by
    decide
  exact of_decide_eq_true (List.all_eq_true.1 (hall n hn) letter h)

theorem toUpper_capital {letter : Char} (h : letter ∈ yesLetters) :
    letter.toUpper = letter ∨ 'A' ≤ letter.toUpper ∧ letter.toUpper ≤ 'Z' := by
  have hall : yesLetters.all (fun letter =>
      letter.toUpper = letter ∨ 'A' ≤ letter.toUpper ∧ letter.toUpper ≤ 'Z') = true := by
    decide
  exact of_decide_eq_true (List.all_eq_true.1 hall letter h)

theorem smallLetter_eq_iff {c letter : Char} (h : letter ∈ yesLetters) :
    smallLetter c = letter ↔ c = letter ∨ c = letter.toUpper := by
  unfold smallLetter
  split
  · next hcapital =>
      obtain ⟨n, hn⟩ := Nat.exists_eq_add_of_le (show 65 ≤ c.toNat from hcapital.1)
      have hle : c.toNat ≤ 90 := hcapital.2
      have hiff := small_eq_iff_of_capital (by omega : n < 26) h
      rw [← hn, Char.ofNat_toNat] at hiff
      exact hiff
  · next hother =>
      refine ⟨Or.inl, fun hc => hc.elim id fun hupper => ?_⟩
      rcases toUpper_capital h with hsame | hcapital
      · exact hupper.trans hsame
      · exact absurd (hupper ▸ hcapital) hother

theorem map_smallLetter_eq_iff {cs letters : List Char}
    (h : ∀ letter ∈ letters, letter ∈ yesLetters) :
    cs.map smallLetter = letters ↔
      List.Forall₂ (fun c letter => c = letter ∨ c = letter.toUpper) cs letters := by
  induction cs generalizing letters with
  | nil =>
      rw [List.map_nil, List.forall₂_nil_left_iff, eq_comm]
  | cons c cs ih =>
      cases letters with
      | nil => exact ⟨nofun, nofun⟩
      | cons letter letters =>
          rw [List.forall_mem_cons] at h
          rw [List.map_cons, List.cons.injEq, List.forall₂_cons, smallLetter_eq_iff h.1, ih h.2]

/-- The texts that are taken for a yes. -/
theorem isTruthy_eq_true_iff : isTruthy text = true ↔ SaysYes text := by
  show yesWords.contains (String.ofList ((trim text.toList).map smallLetter)) = true ↔ _
  rw [List.contains_iff_mem]
  have hword : ∀ word ∈ yesWords,
      (String.ofList ((trim text.toList).map smallLetter) = word ↔
        List.Forall₂ (fun c letter => c = letter ∨ c = letter.toUpper) (trim text.toList)
          word.toList) := by
    intro word hmem
    rw [← map_smallLetter_eq_iff fun letter hletter =>
      List.mem_flatMap.2 ⟨word, hmem, hletter⟩, ← String.toList_inj, String.toList_ofList]
  constructor
  · intro hmem
    exact ⟨_, hmem, (hword _ hmem).1 rfl⟩
  · rintro ⟨word, hmem, hsame⟩
    rwa [(hword word hmem).2 hsame]

/-- A setting that a variable switches on by saying yes and switches off by saying anything else. -/
theorem fromVariable_yes_iff {name : String} {below above : Bool} :
    FromVariable w name (fun text value => value = true ↔ SaysYes text) below above ↔
      above = ((w.text? name).map isTruthy).getD below := by
  simp only [← isTruthy_eq_true_iff, ← Bool.eq_iff_iff]
  exact fromVariable_iff isTruthy

/-! ## All variables -/

/-- Settings below variables, and what the variables make of them. -/
structure Overrides (w : World) (below above : Settings) : Prop where
  executable : FromVariable w "GALAXY_GPG_EXECUTABLE" (fun text value => value = text)
    below.executable above.executable
  keyring : FromVariable w "ANSIBLE_GALAXY_GPG_KEYRING" (fun text value => value = some text)
    below.keyring above.keyring
  timeout : FromVariable w timeoutVariable MeansTimeout below.timeout above.timeout
  requiredCount : FromVariable w "ANSIBLE_GALAXY_REQUIRED_VALID_SIGNATURE_COUNT"
    (fun text value => value = text) below.requiredCount above.requiredCount
  ignoredCodes : FromVariable w "ANSIBLE_GALAXY_IGNORE_SIGNATURE_STATUS_CODES"
    (fun text value => value = splitList text) below.ignoredCodes above.ignoredCodes
  disabled : FromVariable w "ANSIBLE_GALAXY_DISABLE_GPG_VERIFY"
    (fun text value => value = true ↔ SaysYes text) below.disabled above.disabled
  logLevel : FromVariable w "GALAXY_GPG_LOG_LEVEL" (fun text value => value = text)
    below.logLevel above.logLevel

/-- The variables come to the one of the time limit and then the others. -/
theorem overrides_iff :
    Overrides w below above ↔
      FromVariable w timeoutVariable MeansTimeout below.timeout above.timeout ∧
        above = withVariables w (below.withLimit above.timeout) := by
  -- the one setting that may be missing has an alternative where the others have a default
  have hkeyring : ((w.text? "ANSIBLE_GALAXY_GPG_KEYRING").map some).getD below.keyring =
      (w.text? "ANSIBLE_GALAXY_GPG_KEYRING").or below.keyring := by
    cases w.text? "ANSIBLE_GALAXY_GPG_KEYRING" <;> rfl
  constructor
  · intro h
    refine ⟨h.timeout, ?_⟩
    have hexecutable := (fromVariable_iff id).1 h.executable
    have hring := (fromVariable_iff some).1 h.keyring
    have hcount := (fromVariable_iff id).1 h.requiredCount
    have hcodes := (fromVariable_iff splitList).1 h.ignoredCodes
    have hdisabled := fromVariable_yes_iff.1 h.disabled
    have hlevel := (fromVariable_iff id).1 h.logLevel
    rw [hkeyring] at hring
    rw [Option.map_id_fun, id] at hexecutable hcount hlevel
    cases above
    simp only [withVariables, withLimit, Settings.mk.injEq]
    exact ⟨hexecutable, hring, trivial, hcount, hcodes, hdisabled, hlevel⟩
  · rintro ⟨htimeout, habove⟩
    generalize above.timeout = timeout at htimeout habove
    subst habove
    have hid : ∀ name, (w.text? name).map id = w.text? name := fun name => by
      rw [Option.map_id_fun, id]
    exact
      { executable := (fromVariable_iff id).2 (by rw [hid]; rfl)
        keyring := (fromVariable_iff some).2 (by rw [hkeyring]; rfl)
        timeout := htimeout
        requiredCount := (fromVariable_iff id).2 (by rw [hid]; rfl)
        ignoredCodes := (fromVariable_iff splitList).2 rfl
        disabled := fromVariable_yes_iff.2 rfl
        logLevel := (fromVariable_iff id).2 (by rw [hid]; rfl) }

theorem map_withTimeout_eq_ok_iff :
    (withTimeout w below).map (withVariables w) = .ok above ↔ Overrides w below above := by
  rw [map_eq_ok_iff, overrides_iff]
  constructor
  · rintro ⟨s, hs, rfl⟩
    obtain ⟨hvariable, hlimit⟩ := withTimeout_eq_ok_iff.1 hs
    exact ⟨hvariable, congrArg (withVariables w) hlimit⟩
  · rintro ⟨hvariable, habove⟩
    exact ⟨below.withLimit above.timeout, withTimeout_eq_ok_iff.2 ⟨hvariable, rfl⟩, habove.symm⟩

theorem withTimeout_fault {fault : SettingsFault} (h : withTimeout w below = .error fault) :
    ∃ text cause, w.Says timeoutVariable text ∧ fault = .badTimeout text cause ∧
      ∀ timeout, ¬MeansTimeout text timeout := by
  unfold withTimeout at h
  rw [← timeoutVariable] at h
  cases htext : w.text? timeoutVariable with
  | none =>
      rw [htext] at h
      cases h
  | some text =>
      simp only [htext] at h
      cases hread : readSeconds text with
      | ok timeout =>
          rw [hread] at h
          cases h
      | error cause =>
          rw [hread] at h
          cases h
          obtain ⟨cause, rfl⟩ := readSeconds_fault hread
          refine ⟨text, cause, World.text?_eq_some_iff.1 htext, rfl, fun timeout hmeans => ?_⟩
          cases hread.symm.trans (readSeconds_eq_ok_iff.2 hmeans)

/-- **Variables override files.** When files say what the settings are, the variables that say texts
    set their settings, and all other settings remain as the files say. This fails in a single case,
    and then without any settings: the variable of the time limit says a text that, between blanks,
    says no number of seconds in 64 bits. The fault names this text. -/
theorem load_variables (w : World) (explicit : Option FilePath) (below : Settings)
    (hfiles : ofFiles w explicit = .ok below) :
    (∀ above, load w explicit = .ok above ↔ Overrides w below above) ∧
    ((∃ fault, load w explicit = .error fault) ↔ ∃ text, w.Says timeoutVariable text ∧
      ∀ n, n < 2 ^ 64 → ¬SaysNatural (trim text.toList) n) ∧
    ∀ fault, load w explicit = .error fault →
      ∃ text cause, w.Says timeoutVariable text ∧ fault = .badTimeout text cause := by
  have hload := load_of_ofFiles hfiles
  have hok : ∀ above, load w explicit = .ok above ↔ Overrides w below above := by
    intro above
    rw [hload]
    exact map_withTimeout_eq_ok_iff
  have hfault : ∀ fault, load w explicit = .error fault →
      ∃ text cause, w.Says timeoutVariable text ∧ fault = .badTimeout text cause ∧
        ∀ timeout, ¬MeansTimeout text timeout := by
    intro fault h
    rw [hload] at h
    cases htimeout : withTimeout w below with
    | ok s =>
        rw [htimeout] at h
        cases h
    | error cause =>
        rw [htimeout] at h
        cases h
        exact withTimeout_fault htimeout
  refine ⟨hok, ⟨?_, ?_⟩, fun fault h => ?_⟩
  · rintro ⟨fault, h⟩
    obtain ⟨text, -, htold, -, hmeans⟩ := hfault fault h
    refine ⟨text, htold, fun n hn hnatural => ?_⟩
    exact hmeans _ ⟨⟨n, 0, hn, by decide⟩, rfl, rfl, hnatural⟩
  · rintro ⟨text, htold, hnone⟩
    cases hresult : load w explicit with
    | error fault => exact ⟨fault, rfl⟩
    | ok above =>
        obtain ⟨span, -, -, hnatural⟩ := ((hok above).1 hresult).timeout.said text htold
        exact absurd hnatural (hnone span.seconds span.seconds_lt)
  · obtain ⟨text, cause, htold, hname, -⟩ := hfault fault h
    exact ⟨text, cause, htold, hname⟩

/-- A world with these variables, in which each path leads to a file with this text. -/
def worldOfVariables (assigned : List (String × List UInt8)) (file : String) : World where
  environment name := assigned.lookup name
  look _ := .content (Utf8.encode file.toList)
  input := []
  launcher := ⟨3, fun _ => .ended 0 [] (some 0)⟩

/-- Blanks and commas empty the list of a file, and a verification that a file disables is enabled
    again. Octets that are no text change nothing, and a unit behind the seconds is a fault. A yes
    with a capital letter and between blanks disables the verification. -/
theorem load_variables_undone :
    (∃ above, load (worldOfVariables
          [("ANSIBLE_GALAXY_DISABLE_GPG_VERIFY", Utf8.encode "off".toList),
            ("ANSIBLE_GALAXY_IGNORE_SIGNATURE_STATUS_CODES", Utf8.encode " , ".toList),
            ("GALAXY_GPG_TIMEOUT", Utf8.encode " +15\n".toList), ("GALAXY_GPG_LOG_LEVEL", [0xFF])]
          "[[\"gpg\",null,null,\"1\",[\"BADSIG\"],true],[\"info\"]]")
        (some (.ofText "c.json")) = .ok above ∧
      above.disabled = false ∧ above.ignoredCodes = [] ∧
      MeansTimeout " +15\n" above.timeout ∧ above.logLevel = "info") ∧
    (∃ fault, load (worldOfVariables [("GALAXY_GPG_TIMEOUT", Utf8.encode "15s".toList)] "[]")
      (some (.ofText "c.json")) = .error fault) ∧
    ∃ above, load (worldOfVariables
          [("ANSIBLE_GALAXY_DISABLE_GPG_VERIFY", Utf8.encode " On\n".toList)] "[]")
        (some (.ofText "c.json")) = .ok above ∧ above.disabled = true := by
  refine ⟨?_, ?_, ?_⟩
  · have h := load_variables (worldOfVariables
          [("ANSIBLE_GALAXY_DISABLE_GPG_VERIFY", Utf8.encode "off".toList),
            ("ANSIBLE_GALAXY_IGNORE_SIGNATURE_STATUS_CODES", Utf8.encode " , ".toList),
            ("GALAXY_GPG_TIMEOUT", Utf8.encode " +15\n".toList), ("GALAXY_GPG_LOG_LEVEL", [0xFF])]
          "[[\"gpg\",null,null,\"1\",[\"BADSIG\"],true],[\"info\"]]")
        (some (.ofText "c.json"))
        { ignoredCodes := ["BADSIG"], disabled := true, logLevel := "info" } (by rfl)
    have hload : load (worldOfVariables
          [("ANSIBLE_GALAXY_DISABLE_GPG_VERIFY", Utf8.encode "off".toList),
            ("ANSIBLE_GALAXY_IGNORE_SIGNATURE_STATUS_CODES", Utf8.encode " , ".toList),
            ("GALAXY_GPG_TIMEOUT", Utf8.encode " +15\n".toList), ("GALAXY_GPG_LOG_LEVEL", [0xFF])]
          "[[\"gpg\",null,null,\"1\",[\"BADSIG\"],true],[\"info\"]]")
        (some (.ofText "c.json")) =
        .ok { timeout := some ⟨15, 0, by decide, by decide⟩, logLevel := "info" } := by rfl
    have hvariables := (h.1 _).1 hload
    exact ⟨_, hload, rfl, hvariables.ignoredCodes.said " , " rfl,
      hvariables.timeout.said " +15\n" rfl, rfl⟩
  · refine (load_variables _ _ {} (by rfl)).2.1.2 ⟨"15s", rfl, fun n _ htold => ?_⟩
    have hdigits := (saysNatural_iff_digits (by rintro rest ⟨⟩)).1 htold
    exact absurd hdigits.1 (by decide)
  · have h := load_variables (worldOfVariables
          [("ANSIBLE_GALAXY_DISABLE_GPG_VERIFY", Utf8.encode " On\n".toList)] "[]")
        (some (.ofText "c.json")) {} (by rfl)
    have hload : load (worldOfVariables
          [("ANSIBLE_GALAXY_DISABLE_GPG_VERIFY", Utf8.encode " On\n".toList)] "[]")
        (some (.ofText "c.json")) = .ok { disabled := true } := by rfl
    have hyes : SaysYes " On\n" :=
      ⟨"on", by decide, show List.Forall₂ _ ['O', 'n'] ['o', 'n'] from
        .cons (Or.inr rfl) (.cons (Or.inl rfl) .nil)⟩
    exact ⟨_, hload, (((h.1 _).1 hload).disabled.said " On\n" rfl).2 hyes⟩

end Settings

end SigVerdict
