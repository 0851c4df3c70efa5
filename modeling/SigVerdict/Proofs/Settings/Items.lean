import SigVerdict.Proofs.Settings.Variables
import SigVerdict.Proofs.Text.Run

set_option autoImplicit false

/-! # Lists in variables

A list that is written as one text has its items parted by commas and blanks, as many as one likes
and of any kind, and there may be more of them at the ends. The items are the runs of all other
characters, so it makes no difference by what they are parted (`splitList_runs`): neither to the
list nor to anything that is loaded. -/

namespace SigVerdict

/-- The same world, but that a variable says a text. -/
def World.saying (w : World) (name text : String) : World :=
  { w with environment := fun other =>
      if other = name then some (Text.Utf8.encode text.toList) else w.environment other }

theorem World.saying_says (w : World) (name text : String) : (w.saying name text).Says name text :=
  if_pos rfl

/-- What a variable says already can be said again. -/
theorem World.saying_of_says {w : World} {name text : String} (h : w.Says name text) :
    w.saying name text = w := by
  have henvironment : (fun other =>
      if other = name then some (Text.Utf8.encode text.toList) else w.environment other) =
        w.environment := by
    funext other
    split
    · next heq => rw [heq, ← h]
    · rfl
  rw [World.saying, henvironment]

theorem World.environment_saying {w : World} {name other text : String} (h : other ≠ name) :
    (w.saying name text).environment other = w.environment other :=
  if_neg h

theorem World.text?_saying {w : World} {name other text : String} (h : other ≠ name) :
    (w.saying name text).text? other = w.text? other :=
  World.text?_congr (World.environment_saying h)

namespace Settings

open Text

/-- A text lists items: they stand in it in order, without separators of their own, and parted by
    separators from each other. -/
def Lists (text : String) (codes : List String) : Prop :=
  Parted isItemSeparator (codes.map String.toList) text.toList

/-- The variable of the codes to ignore. -/
def codesVariable : String := "ANSIBLE_GALAXY_IGNORE_SIGNATURE_STATUS_CODES"

variable {text : String} {codes : List String}

/-- The items of a list are all the stretches without separators that cannot be made longer, from
    the first to the last. -/
theorem exists_item_stretches (text : String) :
    ∃ stretches : List Stretch, splitList text = stretches.map (fun p => String.ofList p.run) ∧
      stretches.Pairwise (fun p q => p.front.length < q.front.length) ∧
      ∀ p, p ∈ stretches ↔ p.IsMaximal isItemSeparator text.toList := by
  obtain ⟨stretches, hruns, hsorted, hall⟩ := exists_stretches isItemSeparator text.toList
  refine ⟨stretches, ?_, hsorted, hall⟩
  rw [splitList, items, hruns, List.map_map]
  rfl

theorem splitList_eq_iff_lists : splitList text = codes ↔ Lists text codes := by
  rw [splitList, items, Lists, ← runs_eq_iff_parted]
  constructor
  · rintro rfl
    simp [Function.comp_def]
  · intro h
    rw [h]
    simp [Function.comp_def]

/-- A separator parts a list into two. -/
theorem splitList_append_separator {x : Char} (hx : isItemSeparator x = true) (a b : String) :
    splitList (a ++ String.singleton x ++ b) = splitList a ++ splitList b := by
  have htext : (a ++ String.singleton x ++ b).toList = a.toList ++ x :: b.toList := by
    simp [String.toList_append]
  rw [splitList, items, htext, runs_append_separator hx, List.map_append]
  rfl

/-- Files are looked for at the same places, whatever the codes to ignore. -/
theorem ofFiles_saying (w : World) (explicit : Option FilePath) (text : String) :
    ofFiles (w.saying codesVariable text) explicit = ofFiles w explicit := by
  have hother : ∀ other, other ≠ codesVariable →
      (w.saying codesVariable text).environment other = w.environment other :=
    fun other hne => World.environment_saying hne
  have hnamed : named? (w.saying codesVariable text) explicit = named? w explicit := by
    rw [named?, hother "GALAXY_GPG_CONFIG" (by decide), named?]
  have hhome : home? (w.saying codesVariable text) = home? w := by
    rw [home?, hother "HOME" (by decide)]
    rfl
  have hpaths : standardPaths (w.saying codesVariable text) = standardPaths w := by
    simp only [standardPaths, configDirectory?, hhome, hother "XDG_CONFIG_HOME" (by decide)]
  have hlay : ∀ s paths, layFiles (w.saying codesVariable text) s paths = layFiles w s paths := by
    intro s paths
    induction paths generalizing s with
    | nil => rfl
    | cons path paths ih =>
        have hread : readFile (w.saying codesVariable text) path = readFile w path :=
          readFile_congr rfl
        simp only [layFiles, layFile, hread, ih]
  unfold ofFiles
  rw [hnamed, hpaths]
  cases named? w explicit with
  | none => exact hlay _ _
  | some path => rfl

/-- Of all that variables set, the codes to ignore make a difference to those codes only. -/
theorem withVariables_saying (w : World) (text : String) (s : Settings) :
    withVariables (w.saying codesVariable text) s =
      { withVariables w s with ignoredCodes := splitList text } := by
  have hother : ∀ other, other ≠ codesVariable →
      (w.saying codesVariable text).text? other = w.text? other :=
    fun other hne => World.text?_saying hne
  have hcodes := World.text?_eq_some_iff.2 (World.saying_says w codesVariable text)
  unfold withVariables
  rw [hother "GALAXY_GPG_EXECUTABLE" (by decide), hother "ANSIBLE_GALAXY_GPG_KEYRING" (by decide),
    hother "ANSIBLE_GALAXY_REQUIRED_VALID_SIGNATURE_COUNT" (by decide),
    hother "ANSIBLE_GALAXY_DISABLE_GPG_VERIFY" (by decide),
    hother "GALAXY_GPG_LOG_LEVEL" (by decide), ← codesVariable, hcodes]
  rfl

theorem withTimeout_saying (w : World) (text : String) (s : Settings) :
    withTimeout (w.saying codesVariable text) s = withTimeout w s := by
  rw [withTimeout, World.text?_saying (by decide), withTimeout]

/-- Of all that is loaded, the codes to ignore make a difference to those codes only. -/
theorem load_saying (w : World) (explicit : Option FilePath) (text : String) :
    load (w.saying codesVariable text) explicit =
      (load w explicit).map fun s => { s with ignoredCodes := splitList text } := by
  unfold load
  rw [ofFiles_saying]
  cases ofFiles w explicit with
  | error fault => rfl
  | ok s =>
      simp only [withTimeout_saying]
      cases withTimeout w s with
      | error fault => rfl
      | ok limited => exact congrArg Except.ok (withVariables_saying w text limited)

/-- **The items of a list are the longest stretches without separators.** They are all of these,
    from the first to the last. So a text that is made of some items, with commas and blanks between
    each two and any at the ends, is read as these items, and no other list is; and at a separator
    the list parts into two. Where the variable of the codes to ignore lists codes, these are
    loaded, and all ways to part them load the same. -/
theorem splitList_runs (text : String) :
    (∃ stretches : List Stretch, splitList text = stretches.map (fun p => String.ofList p.run) ∧
      stretches.Pairwise (fun p q => p.front.length < q.front.length) ∧
      ∀ p, p ∈ stretches ↔ p.IsMaximal isItemSeparator text.toList) ∧
    (∀ codes, splitList text = codes ↔ Lists text codes) ∧
    (∀ (a b : String) (x : Char), isItemSeparator x = true → text = a ++ String.singleton x ++ b →
      splitList text = splitList a ++ splitList b) ∧
    ∀ codes, Lists text codes → ∀ (w : World) (explicit : Option FilePath),
      (∀ s, w.Says codesVariable text → load w explicit = .ok s → s.ignoredCodes = codes) ∧
      ∀ text', Lists text' codes →
        load (w.saying codesVariable text') explicit =
          load (w.saying codesVariable text) explicit := by
  refine ⟨exists_item_stretches text, fun codes => splitList_eq_iff_lists, ?_,
    fun codes hlists w explicit => ⟨fun s hnumber hload => ?_, fun text' hlists' => ?_⟩⟩
  · rintro a b x hx rfl
    exact splitList_append_separator hx a b
  · rw [← World.saying_of_says hnumber, load_saying, map_eq_ok_iff] at hload
    obtain ⟨loaded, -, rfl⟩ := hload
    exact splitList_eq_iff_lists.2 hlists
  · rw [load_saying, load_saying, splitList_eq_iff_lists.2 hlists,
      splitList_eq_iff_lists.2 hlists']

/-- Two codes with a comma between them, or with commas and blanks of two kinds. -/
theorem splitList_runs_twoWays :
    splitList ",KEYEXPIRED\u3000, REVKEYSIG\n" =
      splitList ",KEYEXPIRED" ++ splitList ", REVKEYSIG\n" ∧
    ∃ s, load ((worldOfVariables [] "[]").saying codesVariable ",KEYEXPIRED\u3000, REVKEYSIG\n")
        (some (.ofText "c.json")) = .ok s ∧
      s.ignoredCodes = ["KEYEXPIRED", "REVKEYSIG"] ∧
      load ((worldOfVariables [] "[]").saying codesVariable "KEYEXPIRED,REVKEYSIG")
        (some (.ofText "c.json")) = .ok s := by
  obtain ⟨-, hmany, hparts, hload⟩ := splitList_runs ",KEYEXPIRED\u3000, REVKEYSIG\n"
  have hlists : Lists ",KEYEXPIRED\u3000, REVKEYSIG\n" ["KEYEXPIRED", "REVKEYSIG"] :=
    (hmany _).1 rfl
  have hlists' : Lists "KEYEXPIRED,REVKEYSIG" ["KEYEXPIRED", "REVKEYSIG"] :=
    ((splitList_runs _).2.1 _).1 rfl
  have hloaded : load ((worldOfVariables [] "[]").saying codesVariable
      ",KEYEXPIRED\u3000, REVKEYSIG\n") (some (.ofText "c.json")) =
      .ok { ignoredCodes := ["KEYEXPIRED", "REVKEYSIG"] } := by rfl
  refine ⟨hparts ",KEYEXPIRED" ", REVKEYSIG\n" '\u3000' (by decide) (by decide), _, hloaded, ?_, ?_⟩
  · exact (hload _ hlists _ _).1 _ (World.saying_says _ _ _) hloaded
  · rw [(hload _ hlists (worldOfVariables [] "[]") _).2 _ hlists', hloaded]

end Settings

end SigVerdict
