import Mathlib.Data.List.Forall2
import SigVerdict.CommandLine.Arguments
import SigVerdict.Proofs.CommandLine.Reading
import SigVerdict.Proofs.Text.Integer

set_option autoImplicit false

/-! # Command lines that ask for a verification

A command line asks for a verification when it is written as one: options that all commands share,
the name of the command, and options of this command behind it, each as often as it may come and
with a value of its type (`AsksToVerify`). The program reads exactly these command lines as such,
and it takes from them what they tell (`readArguments_eq_ok_iff`). -/

namespace SigVerdict.CommandLine

open Text

/-! ## What is written -/

/-- The options that all commands share. -/
def sharedSpellings : List Spelling :=
  [ ⟨"verbose", some 'v', false⟩,
    ⟨"output", none, true⟩,
    ⟨"config", some 'c', true⟩,
    ⟨"no-color", none, false⟩ ]

/-- The options of the command that verifies signatures. -/
def verifySpellings : List Spelling :=
  [ ⟨"manifest", some 'm', true⟩,
    ⟨"signature", some 's', true⟩,
    ⟨"keyring", some 'k', true⟩,
    ⟨"collection", none, true⟩,
    ⟨"required-valid-signature-count", none, true⟩,
    ⟨"ignore-signature-status-code", none, true⟩,
    ⟨"gpg", none, true⟩,
    ⟨"timeout", none, true⟩ ]

/-- A text is this many whole seconds. -/
def IsSeconds (text : String) (limit : Span) : Prop :=
  SaysNatural text.toList limit.seconds ∧ limit.nanos = 0

/-- What uses of options tell the command that verifies signatures. The manifest is named once,
    signatures and codes as often as wanted, and all else at most once. -/
structure Tells (uses : Uses) (a : VerifyArguments) : Prop where
  manifest : uses.valuesOf "manifest" = [a.manifest]
  signatures : uses.valuesOf "signature" = a.signatures
  signed : a.signatures ≠ []
  keyring : uses.valuesOf "keyring" = a.keyring.toList
  collection : uses.valuesOf "collection" = a.collection.toList
  requiredCount : uses.valuesOf "required-valid-signature-count" = a.requiredCount.toList
  ignoredCodes : uses.valuesOf "ignore-signature-status-code" = a.ignoredCodes
  executable : uses.valuesOf "gpg" = a.executable.toList
  timeout : List.Forall₂ IsSeconds (uses.valuesOf "timeout") a.timeout.toList
  paths : ∀ name ∈ ["manifest", "signature", "keyring", "gpg"], "" ∉ uses.valuesOf name

/-- The names of the formats. -/
inductive Names : String → OutputFormat → Prop where
  | human : Names "human" .human
  | json : Names "json" .json
  | yaml : Names "yaml" .yaml

/-- What one place of a command line tells all commands. -/
structure SharedPart where
  verbosity : Nat
  output : Option OutputFormat
  config : Option String
  noColor : Bool

/-- What uses of options tell all commands. -/
structure TellsAll (uses : Uses) (part : SharedPart) : Prop where
  verbosity : (uses.valuesOf "verbose").length = part.verbosity
  output : List.Forall₂ Names (uses.valuesOf "output") part.output.toList
  config : uses.valuesOf "config" = part.config.toList
  path : part.config ≠ some ""
  noColor : (uses.valuesOf "no-color").length = part.noColor.toNat

/-- What all commands are told in front of a command and behind it. What is said behind counts, and
    a variable stands in for the file with the settings. -/
def Shared.ofParts (environment : String → Option (List UInt8)) (front behind : SharedPart) :
    Shared where
  verbosity := min 3 (if behind.verbosity = 0 then front.verbosity else behind.verbosity)
  output := (behind.output.or front.output).getD .human
  config := ((behind.config.or front.config).map .ofText).or
    ((environment "GALAXY_GPG_CONFIG").map .mk)
  noColor := front.noColor || behind.noColor

/-- A command line asks for a verification, and this is what it tells. Two dashes may stand at its
    end. Where the variable for the file with the settings is empty, both places name the file. -/
def AsksToVerify (environment : String → Option (List UInt8)) (arguments : List String)
    (shared : Shared) (a : VerifyArguments) : Prop :=
  ∃ front behind dashes before after first last,
    arguments = front ++ "verify" :: (behind ++ dashes) ∧ (dashes = [] ∨ dashes = ["--"]) ∧
      Written sharedSpellings front before ∧
      Written (verifySpellings ++ sharedSpellings) behind after ∧
      Tells after a ∧ TellsAll before first ∧ TellsAll after last ∧
      (environment "GALAXY_GPG_CONFIG" = some [] → first.config ≠ none ∧ last.config ≠ none) ∧
      shared = .ofParts environment first last

/-- A command line that asks for a verification names signatures. -/
theorem AsksToVerify.signed {environment : String → Option (List UInt8)} {arguments : List String}
    {shared : Shared} {a : VerifyArguments} (h : AsksToVerify environment arguments shared a) :
    a.signatures ≠ [] := by
  obtain ⟨_, _, _, _, _, _, _, -, -, -, -, htells, -⟩ := h
  exact htells.signed

/-! ## The grammars -/

theorem spellings_mainGrammar : mainGrammar.spellings = sharedSpellings := rfl

theorem spellings_verifyGrammar : verifyGrammar.spellings = verifySpellings ++ sharedSpellings :=
  rfl

theorem clear_mainGrammar : mainGrammar.Clear where
  operand := rfl
  names := by decide
  letters := by decide
  long := by decide
  short := by decide
  commands word h cs hword := by
    have hmem : (word = "verify" ∨ word = "decode" ∨ word = "status-codes") ∨ word = "help" := by
      simpa [Grammar.hasCommand, mainGrammar, helpCommand] using h
    rcases hmem with (rfl | rfl | rfl) | rfl <;> exact absurd (List.cons.inj hword).1 (by decide)

theorem clear_verifyGrammar : verifyGrammar.Clear where
  operand := rfl
  names := by decide
  letters := by decide
  long := by decide
  short := by decide
  commands := nofun

/-! ## Values -/

/-- The number of seconds that a text says. -/
theorem readNatural_bind_eq_some_iff {text : String} {limit : Span} :
    (readNatural Span.mostSeconds text.toList).toOption.bind Span.ofSeconds? = some limit ↔
      IsSeconds text limit := by
  constructor
  · intro h
    cases hread : readNatural Span.mostSeconds text.toList with
    | error cause =>
        rw [hread] at h
        cases h
    | ok n =>
        obtain ⟨hnumber, hle⟩ := readNatural_eq_ok_iff.1 hread
        rw [hread] at h
        cases (Span.ofSeconds?_of_le hle).symm.trans h
        exact ⟨hnumber, rfl⟩
  · rintro ⟨hnumber, hnanos⟩
    have hle : limit.seconds ≤ Span.mostSeconds := Nat.le_of_lt_succ limit.seconds_lt
    rw [readNatural_eq_ok_iff.2 ⟨hnumber, hle⟩]
    exact (Span.ofSeconds?_of_le hle).trans (congrArg some (Span.ext rfl hnanos.symm))

/-- A text is a value of a type. -/
def ValueType.Has : ValueType → String → Prop
  | .text, _ => True
  | .path, value => value ≠ ""
  | .seconds, value => ∃ limit, IsSeconds value limit
  | .oneOf choices, value => value ∈ choices

theorem ValueType.check_eq_ok_iff {type : ValueType} {option value : String} :
    type.check option value = .ok () ↔ type.Has value := by
  cases type with
  | text => exact iff_of_true rfl trivial
  | path =>
      rw [check, Has, ne_eq, ← String.isEmpty_iff]
      split
      · next h => exact iff_of_false nofun fun hne => hne h
      · next h => exact iff_of_true rfl h
  | seconds =>
      rw [check, Has]
      cases hread : readNatural Span.mostSeconds value.toList with
      | error cause =>
          refine iff_of_false nofun ?_
          rintro ⟨limit, h⟩
          rw [← readNatural_bind_eq_some_iff, hread] at h
          cases h
      | ok n =>
          obtain ⟨hnumber, hle⟩ := readNatural_eq_ok_iff.1 hread
          exact iff_of_true rfl ⟨⟨n, 0, Nat.lt_succ_of_le hle, by decide⟩, hnumber, rfl⟩
  | oneOf choices =>
      rw [check, Has, ← List.contains_iff_mem]
      split
      · next h => exact iff_of_true rfl h
      · next h => exact iff_of_false (by split <;> exact nofun) h

section Fit

variable {uses : Uses} {long : String} {short : Option Char} {type : ValueType} {required : Bool}
  {environment : Option String}

theorem Uses.fit_tally : uses.Fit ⟨long, short, .tally, required, environment⟩ := ⟨nofun, nofun⟩

theorem Uses.fit_switch_iff :
    uses.Fit ⟨long, short, .switch, required, environment⟩ ↔ (uses.valuesOf long).length ≤ 1 :=
  ⟨fun h => h.once rfl, fun h => ⟨nofun, fun _ => h⟩⟩

theorem Uses.fit_many_iff :
    uses.Fit ⟨long, short, .many type, required, environment⟩ ↔
      ∀ value ∈ uses.valuesOf long, type.Has value := by
  constructor
  · exact fun h value hvalue => ValueType.check_eq_ok_iff.1 (h.typed type rfl value hvalue)
  · refine fun h => ⟨?_, nofun⟩
    rintro _ ⟨⟩ value hvalue
    exact ValueType.check_eq_ok_iff.2 (h value hvalue)

theorem Uses.fit_once_iff :
    uses.Fit ⟨long, short, .once type, required, environment⟩ ↔
      (uses.valuesOf long).length ≤ 1 ∧ ∀ value ∈ uses.valuesOf long, type.Has value := by
  constructor
  · intro h
    refine ⟨h.once rfl, fun value hvalue => ?_⟩
    exact ValueType.check_eq_ok_iff.1 (h.typed type rfl value hvalue)
  · rintro ⟨honce, h⟩
    refine ⟨?_, fun _ => honce⟩
    rintro _ ⟨⟩ value hvalue
    exact ValueType.check_eq_ok_iff.2 (h value hvalue)

end Fit

/-! ## What uses tell -/

section Single

variable {α β : Type} {values : List α}

/-- An option that comes at most once has its last value, if it has any. -/
theorem eq_toList_iff {value? : Option α} :
    values = value?.toList ↔ values.length ≤ 1 ∧ value? = values.getLast? := by
  match values with
  | [] => cases value? <;> simp
  | [value] => cases value? <;> simp [eq_comm]
  | first :: second :: rest => cases value? <;> simp

/-- An option that comes exactly once has its last value. -/
theorem eq_singleton_iff {values : List String} {value : String} :
    values = [value] ↔ values.length ≤ 1 ∧ values ≠ [] ∧ value = values.getLast?.getD "" := by
  match values with
  | [] => simp
  | [given] => simp [eq_comm]
  | first :: second :: rest => simp

/-- The same for an option whose value is read. -/
theorem forall₂_toList_iff {Means : α → β → Prop} {read : α → Option β}
    (hread : ∀ a, (∃ b, Means a b) → ∀ b, read a = some b ↔ Means a b) {value? : Option β} :
    List.Forall₂ Means values value?.toList ↔
      values.length ≤ 1 ∧ (∀ a ∈ values, ∃ b, Means a b) ∧ value? = values.getLast?.bind read := by
  match values with
  | [] => cases value? <;> simp
  | [a] =>
      have hmeans (b : β) : Means a b ↔ (∃ b, Means a b) ∧ read a = some b :=
        ⟨fun h => ⟨⟨b, h⟩, (hread a ⟨b, h⟩ b).2 h⟩, fun ⟨h, hb⟩ => (hread a h b).1 hb⟩
      cases value? with
      | none =>
          refine iff_of_false nofun ?_
          rintro ⟨-, hsome, hnone⟩
          obtain ⟨b, hb⟩ := hsome a List.mem_cons_self
          cases hnone.trans ((hread a ⟨b, hb⟩ b).2 hb)
      | some b => simp [hmeans b, eq_comm]
  | first :: second :: rest => cases value? <;> simp

theorem exists_names_iff {word : String} :
    (∃ format, Names word format) ↔ word ∈ ["human", "json", "yaml"] := by
  simp only [List.mem_cons, List.not_mem_nil, or_false]
  constructor
  · rintro ⟨_, _ | _ | _⟩ <;> simp
  · rintro (rfl | rfl | rfl)
    · exact ⟨_, .human⟩
    · exact ⟨_, .json⟩
    · exact ⟨_, .yaml⟩

theorem names_iff {word : String} (h : ∃ format, Names word format) {format : OutputFormat} :
    Names word format ↔ .ofWord word = format := by
  have hword {format : OutputFormat} (h : Names word format) : .ofWord word = format := by
    cases h <;> rfl
  constructor
  · exact hword
  · rintro rfl
    obtain ⟨format, h⟩ := h
    rwa [hword h]

theorem forall₂_names_iff {words : List String} {format? : Option OutputFormat} :
    List.Forall₂ Names words format?.toList ↔
      words.length ≤ 1 ∧ (∀ word ∈ words, word ∈ ["human", "json", "yaml"]) ∧
        format? = words.getLast?.map .ofWord := by
  simp only [← exists_names_iff, Option.map_eq_bind]
  exact forall₂_toList_iff fun word h format => Option.some_inj.trans (names_iff h).symm

theorem forall₂_isSeconds_iff {texts : List String} {limit? : Option Span} :
    List.Forall₂ IsSeconds texts limit?.toList ↔
      texts.length ≤ 1 ∧ (∀ text ∈ texts, ∃ limit, IsSeconds text limit) ∧
        limit? = texts.getLast?.bind fun text =>
          (readNatural Span.mostSeconds text.toList).toOption.bind Span.ofSeconds? :=
  forall₂_toList_iff fun _ _ _ => readNatural_bind_eq_some_iff

end Single

variable {environment : String → Option (List UInt8)} {uses : Uses} {a : VerifyArguments}
  {part : SharedPart}

theorem fits_sharedFlags_iff : uses.Fits sharedFlags ↔
    ((uses.valuesOf "output").length ≤ 1 ∧
      ∀ value ∈ uses.valuesOf "output", value ∈ ["human", "json", "yaml"]) ∧
    ((uses.valuesOf "config").length ≤ 1 ∧ ∀ value ∈ uses.valuesOf "config", value ≠ "") ∧
    (uses.valuesOf "no-color").length ≤ 1 := by
  simp only [Uses.Fits, sharedFlags, List.forall_mem_cons, Uses.fit_tally, Uses.fit_once_iff,
    Uses.fit_switch_iff, ValueType.Has, true_and, List.not_mem_nil, IsEmpty.forall_iff,
    implies_true, and_true]

theorem fits_verifyFlags_iff : uses.Fits verifyFlags ↔
    ((uses.valuesOf "manifest").length ≤ 1 ∧ ∀ value ∈ uses.valuesOf "manifest", value ≠ "") ∧
    (∀ value ∈ uses.valuesOf "signature", value ≠ "") ∧
    ((uses.valuesOf "keyring").length ≤ 1 ∧ ∀ value ∈ uses.valuesOf "keyring", value ≠ "") ∧
    (uses.valuesOf "collection").length ≤ 1 ∧
    (uses.valuesOf "required-valid-signature-count").length ≤ 1 ∧
    ((uses.valuesOf "gpg").length ≤ 1 ∧ ∀ value ∈ uses.valuesOf "gpg", value ≠ "") ∧
    (uses.valuesOf "timeout").length ≤ 1 ∧
      ∀ value ∈ uses.valuesOf "timeout", ∃ limit, IsSeconds value limit := by
  simp only [Uses.Fits, verifyFlags, List.forall_mem_cons, Uses.fit_many_iff, Uses.fit_once_iff,
    ValueType.Has, true_and, List.not_mem_nil, IsEmpty.forall_iff, implies_true, and_true]

/-- The part that uses make. -/
def SharedPart.ofUses (uses : Uses) : SharedPart where
  verbosity := (uses.valuesOf "verbose").length
  output := (uses.valuesOf "output").getLast?.map .ofWord
  config := (uses.valuesOf "config").getLast?
  noColor := Given.has { flags := uses } "no-color"

theorem length_eq_toNat_iff {values : List String} {b given : Bool}
    (h : given = true ↔ values ≠ []) :
    values.length = b.toNat ↔ values.length ≤ 1 ∧ b = given := by
  match values with
  | [] => cases b <;> cases given <;> simp_all
  | [value] => cases b <;> cases given <;> simp_all
  | first :: second :: rest => cases b <;> simp

theorem tellsAll_iff : TellsAll uses part ↔ uses.Fits sharedFlags ∧ part = .ofUses uses := by
  have hgiven : Given.has { flags := uses } "no-color" = true ↔ uses.valuesOf "no-color" ≠ [] :=
    Given.has_eq_true_iff
  obtain ⟨verbosity, output, config, noColor⟩ := part
  rw [fits_sharedFlags_iff, SharedPart.ofUses, SharedPart.mk.injEq]
  constructor
  · rintro ⟨hverbosity, houtput, hconfig, hpath, hnoColor⟩
    obtain ⟨houtput, hwords, hformat⟩ := forall₂_names_iff.1 houtput
    obtain ⟨hlength, hlast⟩ := eq_toList_iff.1 hconfig
    obtain ⟨hnone, hswitch⟩ := (length_eq_toNat_iff hgiven).1 hnoColor
    refine ⟨⟨⟨houtput, hwords⟩, ⟨hlength, ?_⟩, hnone⟩, hverbosity.symm, hformat, hlast, hswitch⟩
    rintro value hvalue rfl
    rw [hconfig, Option.mem_toList] at hvalue
    exact hpath hvalue
  · rintro ⟨⟨⟨houtput, hwords⟩, ⟨hlength, hvalues⟩, hnone⟩, hverbosity, hformat, hlast, hswitch⟩
    have hconfig := eq_toList_iff.2 ⟨hlength, hlast⟩
    refine ⟨hverbosity.symm, forall₂_names_iff.2 ⟨houtput, hwords, hformat⟩, hconfig, ?_,
      (length_eq_toNat_iff hgiven).2 ⟨hnone, hswitch⟩⟩
    intro hempty
    refine hvalues "" ?_ rfl
    rw [hconfig]
    exact Option.mem_toList.2 hempty

theorem tells_iff : Tells uses a ↔ uses.Fits verifyFlags ∧
    (∀ f ∈ verifyFlags, f.required = true → uses.valuesOf f.long ≠ []) ∧
    a = verifyArgumentsOf { flags := uses } := by
  have hrequired : (∀ f ∈ verifyFlags, f.required = true → uses.valuesOf f.long ≠ []) ↔
      uses.valuesOf "manifest" ≠ [] ∧ uses.valuesOf "signature" ≠ [] := by
    simp [verifyFlags]
  have hpath {values : List String} : "" ∉ values ↔ ∀ value ∈ values, value ≠ "" :=
    ⟨fun h value hvalue hempty => h (hempty ▸ hvalue), fun h hempty => h "" hempty rfl⟩
  obtain ⟨manifest, signatures, keyring, collection, requiredCount, ignoredCodes, executable,
    timeout⟩ := a
  rw [fits_verifyFlags_iff, hrequired]
  simp only [verifyArgumentsOf, Given.value?, Given.values_eq_valuesOf, VerifyArguments.mk.injEq,
    ← hpath]
  constructor
  · intro h
    obtain ⟨hmanifest, hsome, hlastManifest⟩ := eq_singleton_iff.1 h.manifest
    have hsigned : uses.valuesOf "signature" ≠ [] := h.signatures.symm ▸ h.signed
    have hpaths := h.paths
    obtain ⟨hkeyring, hlastKeyring⟩ := eq_toList_iff.1 h.keyring
    obtain ⟨hcollection, hlastCollection⟩ := eq_toList_iff.1 h.collection
    obtain ⟨hcount, hlastCount⟩ := eq_toList_iff.1 h.requiredCount
    obtain ⟨hexecutable, hlastExecutable⟩ := eq_toList_iff.1 h.executable
    obtain ⟨htimeout, htexts, hlimit⟩ := forall₂_isSeconds_iff.1 h.timeout
    simp only [List.forall_mem_cons] at hpaths
    obtain ⟨hmanifestPath, hsignaturePaths, hkeyringPath, hexecutablePath, -⟩ := hpaths
    exact ⟨⟨⟨hmanifest, hmanifestPath⟩, hsignaturePaths, ⟨hkeyring, hkeyringPath⟩, hcollection,
      hcount, ⟨hexecutable, hexecutablePath⟩, htimeout, htexts⟩, ⟨hsome, hsigned⟩, hlastManifest,
      h.signatures.symm, hlastKeyring, hlastCollection, hlastCount, h.ignoredCodes.symm,
      hlastExecutable, hlimit⟩
  · rintro ⟨⟨⟨hmanifest, hmanifestPath⟩, hsignaturePaths, ⟨hkeyring, hkeyringPath⟩, hcollection,
      hcount, ⟨hexecutable, hexecutablePath⟩, htimeout, htexts⟩, ⟨hsome, hsigned⟩, hlastManifest,
      rfl, hlastKeyring, hlastCollection, hlastCount, rfl, hlastExecutable, hlimit⟩
    exact {
      manifest := eq_singleton_iff.2 ⟨hmanifest, hsome, hlastManifest⟩
      signatures := rfl
      signed := hsigned
      keyring := eq_toList_iff.2 ⟨hkeyring, hlastKeyring⟩
      collection := eq_toList_iff.2 ⟨hcollection, hlastCollection⟩
      requiredCount := eq_toList_iff.2 ⟨hcount, hlastCount⟩
      ignoredCodes := rfl
      executable := eq_toList_iff.2 ⟨hexecutable, hlastExecutable⟩
      timeout := forall₂_isSeconds_iff.2 ⟨htimeout, htexts, hlimit⟩
      paths := by simp [hmanifestPath, hsignaturePaths, hkeyringPath, hexecutablePath] }

/-! ## What is read -/

theorem eq_verify_of_commandOf {word : String} {given : Given}
    (h : commandOf word given = .verify a) : word = "verify" ∧ a = verifyArgumentsOf given := by
  unfold commandOf at h
  split at h
  · next hword => exact ⟨hword, (Command.verify.inj h).symm⟩
  · split at h <;> cases h

theorem readArguments_eq_ok_iff_run {arguments : List String} {shared : Shared} :
    readArguments environment arguments = .ok ⟨shared, .verify a⟩ ↔
      ∃ words found front behind,
        (∃ last, Reader.run mainGrammar {} arguments = .ok (last, some ("verify", words)) ∧
          last.finish mainGrammar environment = .ok front) ∧
        (∃ last, Reader.run verifyGrammar {} words = .ok (last, found) ∧
          last.finish verifyGrammar environment = .ok behind) ∧
        shared = sharedOf environment front behind ∧ a = verifyArgumentsOf behind := by
  constructor
  · intro h
    obtain ⟨⟨front, found⟩, hfront, h⟩ := bind_eq_ok_iff.1 h
    cases found with
    | none => cases h
    | some found =>
        obtain ⟨word, words⟩ := found
        dsimp only at h
        split at h
        · cases h
        · next g hg =>
            obtain ⟨⟨behind, found⟩, hbehind, h⟩ := bind_eq_ok_iff.1 h
            obtain ⟨after, hafter, h⟩ := bind_eq_ok_iff.1 h
            obtain ⟨before, hbefore, h⟩ := bind_eq_ok_iff.1 h
            obtain ⟨rfl, hcommand⟩ := Arguments.mk.inj (Except.ok.inj h)
            obtain ⟨rfl, rfl⟩ := eq_verify_of_commandOf hcommand
            cases hg
            exact ⟨words, found, before, after, ⟨front, hfront, hbefore⟩, ⟨behind, hbehind, hafter⟩,
              rfl, rfl⟩
  · rintro ⟨words, found, before, after, ⟨front, hfront, hbefore⟩, ⟨behind, hbehind, hafter⟩,
      rfl, rfl⟩
    refine bind_eq_ok_iff.2 ⟨_, hfront, bind_eq_ok_iff.2 ⟨_, hbehind, ?_⟩⟩
    exact bind_eq_ok_iff.2 ⟨_, hafter, bind_eq_ok_iff.2 ⟨_, hbefore, rfl⟩⟩

theorem suits_mainGrammar_iff : Reader.Suits mainGrammar environment uses ↔
    uses.Fits sharedFlags ∧
      (environment configVariable = some [] → uses.valuesOf "config" ≠ []) := by
  constructor
  · intro h
    exact ⟨h.fits, h.overridden ⟨"config", some 'c', .once .path, false, some configVariable⟩
      (by decide)⟩
  · rintro ⟨hfits, hconfig⟩
    refine ⟨hfits, by simp [mainGrammar, sharedFlags], ?_⟩
    simpa [mainGrammar, sharedFlags] using hconfig

theorem suits_verifyGrammar_iff : Reader.Suits verifyGrammar environment uses ↔
    (uses.Fits verifyFlags ∧
      ∀ f ∈ verifyFlags, f.required = true → uses.valuesOf f.long ≠ []) ∧
    Reader.Suits mainGrammar environment uses := by
  have hflags (P : Flag → Prop) : (∀ f ∈ verifyGrammar.flags, P f) ↔
      (∀ f ∈ verifyFlags, P f) ∧ ∀ f ∈ mainGrammar.flags, P f :=
    List.forall_mem_append
  constructor
  · rintro ⟨hfits, hrequired, hoverridden⟩
    obtain ⟨hfits, hshared⟩ := (hflags _).1 hfits
    obtain ⟨hrequired, hmain⟩ := (hflags _).1 hrequired
    exact ⟨⟨hfits, hrequired⟩, hshared, hmain, ((hflags _).1 hoverridden).2⟩
  · rintro ⟨⟨hfits, hrequired⟩, hshared, hmain, hoverridden⟩
    refine ⟨(hflags _).2 ⟨hfits, hshared⟩, (hflags _).2 ⟨hrequired, hmain⟩,
      (hflags _).2 ⟨?_, hoverridden⟩⟩
    -- no variable stands in for an option of the command itself
    simp [verifyFlags]

theorem sharedOf_eq_ofParts (before after : Uses) :
    sharedOf environment { flags := before } { flags := after } =
      .ofParts environment (.ofUses before) (.ofUses after) := by
  have hlast (uses : Uses) (name : String) :
      Given.value? { flags := uses } name = (uses.valuesOf name).getLast? :=
    congrArg List.getLast? (Given.values_eq_valuesOf _ name)
  simp only [sharedOf, Shared.ofParts, SharedPart.ofUses, hlast, Given.values_eq_valuesOf,
    Option.map_or]
  rfl

/-- **What is read is what is told.** The program takes a command line for one that asks for a
    verification exactly if it is one, and reads from it what it tells. -/
theorem readArguments_eq_ok_iff {arguments : List String} {shared : Shared} :
    readArguments environment arguments = .ok ⟨shared, .verify a⟩ ↔
      AsksToVerify environment arguments shared a := by
  have hconfig (uses : Uses) : (SharedPart.ofUses uses).config ≠ none ↔
      uses.valuesOf "config" ≠ [] :=
    not_congr List.getLast?_eq_none_iff
  simp only [readArguments_eq_ok_iff_run, Reader.run_finish_iff clear_mainGrammar,
    Reader.run_finish_iff clear_verifyGrammar, suits_verifyGrammar_iff, suits_mainGrammar_iff,
    spellings_mainGrammar, spellings_verifyGrammar]
  constructor
  · rintro ⟨words, found, _, _,
      ⟨front, before, tail, rfl, hbefore, hends, ⟨hfront, hvariable⟩, rfl⟩,
      ⟨behind, after, dashes, rfl, hafter, hdashes, ⟨⟨hfits, hrequired⟩, hbehind, hvariable'⟩, rfl⟩,
      rfl, rfl⟩
    cases hends
    refine ⟨front, behind, dashes, before, after, .ofUses before, .ofUses after, rfl, ?_, hbefore,
      hafter, tells_iff.2 ⟨hfits, hrequired, rfl⟩, tellsAll_iff.2 ⟨hfront, rfl⟩,
      tellsAll_iff.2 ⟨hbehind, rfl⟩, ?_, sharedOf_eq_ofParts before after⟩
    · cases hdashes with
      | nothing => exact Or.inl rfl
      | dashes => exact Or.inr rfl
      | command h => cases h
    · intro hempty
      exact ⟨(hconfig before).2 (hvariable hempty), (hconfig after).2 (hvariable' hempty)⟩
  · rintro ⟨front, behind, dashes, before, after, _, _, rfl, hdashes, hbefore, hafter, htells,
      hfirst, hlast, hvariable, rfl⟩
    obtain ⟨hfits, hrequired, rfl⟩ := tells_iff.1 htells
    obtain ⟨hfront, rfl⟩ := tellsAll_iff.1 hfirst
    obtain ⟨hbehind, rfl⟩ := tellsAll_iff.1 hlast
    refine ⟨behind ++ dashes, none, _, _,
      ⟨front, before, _, rfl, hbefore, .command rfl, ⟨hfront, ?_⟩, rfl⟩,
      ⟨behind, after, dashes, rfl, hafter, ?_, ⟨⟨hfits, hrequired⟩, hbehind, ?_⟩, rfl⟩,
      (sharedOf_eq_ofParts before after).symm, rfl⟩
    · exact fun hempty => (hconfig before).1 (hvariable hempty).1
    · rcases hdashes with rfl | rfl
      · exact .nothing
      · exact .dashes
    · exact fun hempty => (hconfig after).1 (hvariable hempty).2

end SigVerdict.CommandLine
