import Mathlib.Data.List.Forall2
import Mathlib.Data.List.Induction
import SigVerdict.Proofs.Settings.Load

set_option autoImplicit false

/-! # Layers of files

If no file is named, the files at the four standard places (`PlaceAt`) are laid over each other, as
far as they are there (`Present`). What this comes to can be said for each setting by itself, from
what the files say of it (`layered`): one more file changes this in the way of `merge`, and so the
run over all files holds it at the end. The first file that does not hold settings is the only one
whose fault is seen. -/

namespace SigVerdict.Settings

/-! ## Layers -/

/-- The last of the values that is not standard, or else the standard one. -/
def lastOr {α : Type} (isStandard : α → Bool) (standard : α) (values : List α) : α :=
  (values.filter (!isStandard ·)).getLastD standard

/-- What layers of settings come to, of which each covers those before it. -/
def layered (layers : List Settings) : Settings where
  executable := lastOr (samePath standard.executable) standard.executable
    (layers.map executable)
  keyring := (layers.filterMap keyring).getLast?
  timeout := (layers.filterMap timeout).getLast?
  requiredCount := lastOr (· == standard.requiredCount) standard.requiredCount
    (layers.map requiredCount)
  ignoredCodes := lastOr List.isEmpty [] (layers.map ignoredCodes)
  disabled := layers.any disabled
  logLevel := lastOr (· == standard.logLevel) standard.logLevel (layers.map logLevel)

theorem lastOr_concat {α : Type} (isStandard : α → Bool) (standard : α) (values : List α)
    (upper : α) :
    lastOr isStandard standard (values ++ [upper]) =
      cover isStandard (lastOr isStandard standard values) upper := by
  unfold lastOr cover
  rw [List.filter_append, List.filter_singleton]
  cases isStandard upper with
  | true => simp
  | false => simp

theorem getLast?_filterMap_concat {α β : Type} (f : α → Option β) (values : List α) (upper : α) :
    ((values ++ [upper]).filterMap f).getLast? = (f upper).or (values.filterMap f).getLast? := by
  rw [List.filterMap_append, List.getLast?_append]
  cases h : f upper with
  | none => simp [h]
  | some b => simp [h]

/-- One more layer is laid over what those before it come to. -/
theorem layered_concat (layers : List Settings) (upper : Settings) :
    layered (layers ++ [upper]) = (layered layers).merge upper := by
  have hdisabled : (layers ++ [upper]).any disabled =
      (upper.disabled || layers.any disabled) := by
    rw [List.any_append, Bool.or_comm]
    simp
  unfold layered merge
  simp only [List.map_append, List.map_cons, List.map_nil, lastOr_concat,
    getLast?_filterMap_concat, hdisabled]

theorem foldl_merge (layers : List Settings) : layers.foldl merge standard = layered layers := by
  -- The fold works from the first layer on, but what is known is about the last one.
  induction layers using List.reverseRecOn with
  | nil => rfl
  | append_singleton layers upper ih => rw [List.foldl_concat, ih, layered_concat]

/-! ## Files -/

variable {w : World} {paths : List FilePath} {fault : SettingsFault}

/-- What files hold, one by one. -/
def ReadAs (w : World) : List FilePath → List Settings → Prop := List.Forall₂ (Holds w)

/-- The fault of the first of some files that does not hold settings. -/
inductive FirstFault (w : World) : List FilePath → SettingsFault → Prop where
  | here {path : FilePath} {paths : List FilePath} {fault : SettingsFault}
      (h : Fails w path fault) : FirstFault w (path :: paths) fault
  | behind {path : FilePath} {paths : List FilePath} {fault : SettingsFault} {s : Settings}
      (hpath : Holds w path s) (hpaths : FirstFault w paths fault) :
      FirstFault w (path :: paths) fault

theorem readAs_or_firstFault (w : World) (paths : List FilePath) :
    (∃ layers, ReadAs w paths layers) ∨ ∃ fault, FirstFault w paths fault := by
  induction paths with
  | nil => exact Or.inl ⟨[], .nil⟩
  | cons path paths ih =>
      rcases holds_or_fails w path with ⟨layer, hpath⟩ | ⟨fault, hpath⟩
      · rcases ih with ⟨layers, hpaths⟩ | ⟨fault, hpaths⟩
        · exact Or.inl ⟨layer :: layers, .cons hpath hpaths⟩
        · exact Or.inr ⟨fault, .behind hpath hpaths⟩
      · exact Or.inr ⟨fault, .here hpath⟩

theorem layFiles_of_readAs {layers : List Settings} (h : ReadAs w paths layers) (s : Settings) :
    layFiles w s paths = .ok (layers.foldl merge s) := by
  induction h generalizing s with
  | nil => rfl
  | cons hpath hpaths ih =>
      rw [layFiles, layFile, readFile_of_holds hpath]
      exact ih _

theorem layFiles_of_firstFault (h : FirstFault w paths fault) (s : Settings) :
    layFiles w s paths = .error fault := by
  induction h generalizing s with
  | here h =>
      rw [layFiles, layFile, readFile_of_fails h]
      rfl
  | behind hpath hpaths ih =>
      rw [layFiles, layFile, readFile_of_holds hpath]
      exact ih _

theorem layFiles_eq_ok_iff {s : Settings} :
    layFiles w standard paths = .ok s ↔ ∃ layers, ReadAs w paths layers ∧ s = layered layers := by
  constructor
  · intro h
    rcases readAs_or_firstFault w paths with ⟨layers, hlayers⟩ | ⟨fault, hfault⟩
    · rw [layFiles_of_readAs hlayers, foldl_merge] at h
      cases h
      exact ⟨layers, hlayers, rfl⟩
    · cases (layFiles_of_firstFault hfault standard).symm.trans h
  · rintro ⟨layers, hlayers, rfl⟩
    rw [layFiles_of_readAs hlayers, foldl_merge]

theorem layFiles_eq_error_iff :
    layFiles w standard paths = .error fault ↔ FirstFault w paths fault := by
  refine ⟨fun h => ?_, fun h => layFiles_of_firstFault h standard⟩
  rcases readAs_or_firstFault w paths with ⟨layers, hlayers⟩ | ⟨fault', hfault⟩
  · cases (layFiles_of_readAs hlayers standard).symm.trans h
  · cases (layFiles_of_firstFault hfault standard).symm.trans h
    exact hfault

/-! ## Places -/

/-- The user's directory is what a variable says, and where that is missing or empty, what the
    user's account says. -/
inductive Home (w : World) : FilePath → Prop where
  | said {octets : List UInt8} (h : w.environment "HOME" = some octets) (hne : octets ≠ []) :
      Home w ⟨octets⟩
  | account {octets : List UInt8}
      (h : w.environment "HOME" = none ∨ w.environment "HOME" = some [])
      (haccount : w.account = some octets) (hne : octets ≠ []) : Home w ⟨octets⟩

/-- The directory for the settings of programs is what a variable says, if it says an absolute path,
    and otherwise a directory of the user's. -/
inductive ConfigDirectory (w : World) : FilePath → Prop where
  | said {names : List UInt8}
      (h : w.environment "XDG_CONFIG_HOME" = some (FilePath.slash :: names)) :
      ConfigDirectory w ⟨FilePath.slash :: names⟩
  | home {home : FilePath}
      (h : ∀ names, w.environment "XDG_CONFIG_HOME" ≠ some (FilePath.slash :: names))
      (hhome : Home w home) : ConfigDirectory w (home.join (.ofText ".config"))

/-- The standard places of settings. They are numbered, and what stands at a place covers what
    stands at those with lower numbers. -/
inductive PlaceAt (w : World) : Nat → FilePath → Prop where
  | system : PlaceAt w 0 (.ofText "/etc/galaxy-gpg/config.toml")
  | user {home : FilePath} (h : Home w home) : PlaceAt w 1 (home.join (.ofText ".galaxy-gpg.toml"))
  | programs {directory : FilePath} (h : ConfigDirectory w directory) :
      PlaceAt w 2 (directory.join (.ofText "galaxy-gpg/config.toml"))
  | project : PlaceAt w 3 (.ofText "galaxy-gpg.toml")

/-- The files that are there at the standard places, in the order of the places. -/
def Present (w : World) (paths : List FilePath) : Prop :=
  ∃ file? : Nat → Option FilePath,
    (∀ n path, file? n = some path ↔ PlaceAt w n path ∧ (w.look path).isThere = true) ∧
    paths = (List.range 4).filterMap file?

theorem directory?_eq_some_iff {value : Option (List UInt8)} {directory : FilePath} :
    directory? value = some directory ↔ value = some directory.octets ∧ directory.octets ≠ [] := by
  unfold directory?
  split
  · exact ⟨nofun, nofun⟩
  · exact ⟨nofun, fun ⟨hvalue, hne⟩ => absurd (Option.some.inj hvalue).symm hne⟩
  · next octets hne =>
      rw [Option.some.injEq, Option.some.injEq]
      constructor
      · rintro rfl
        exact ⟨rfl, hne⟩
      · rintro ⟨rfl, -⟩
        rfl

theorem directory?_eq_none_iff {value : Option (List UInt8)} :
    directory? value = none ↔ value = none ∨ value = some [] := by
  unfold directory?
  split
  · exact iff_of_true rfl (Or.inl rfl)
  · exact iff_of_true rfl (Or.inr rfl)
  · next octets hne =>
      exact iff_of_false nofun (not_or.2 ⟨nofun, fun hnil => hne (Option.some.inj hnil)⟩)

theorem home?_eq_some_iff {home : FilePath} : home? w = some home ↔ Home w home := by
  rw [home?, Option.or_eq_some_iff, directory?_eq_some_iff, directory?_eq_none_iff,
    directory?_eq_some_iff]
  constructor
  · rintro (⟨h, hne⟩ | ⟨h, haccount, hne⟩)
    · exact .said h hne
    · exact .account h haccount hne
  · rintro (⟨h, hne⟩ | ⟨h, haccount, hne⟩)
    · exact Or.inl ⟨h, hne⟩
    · exact Or.inr ⟨h, haccount, hne⟩

theorem configDirectory?_eq_some_iff {directory : FilePath} :
    configDirectory? w = some directory ↔ ConfigDirectory w directory := by
  have hhome : (home? w).map (·.join (.ofText ".config")) = some directory ↔
      ∃ home, Home w home ∧ home.join (.ofText ".config") = directory := by
    simp only [Option.map_eq_some_iff, home?_eq_some_iff]
  unfold configDirectory?
  by_cases habsolute : ∃ names, w.environment "XDG_CONFIG_HOME" = some (FilePath.slash :: names)
  · obtain ⟨names, hnames⟩ := habsolute
    rw [hnames]
    constructor
    · rintro ⟨⟩
      exact .said hnames
    · intro h
      cases h with
      | said h => rw [hnames] at h; cases h; rfl
      | home h _ => exact absurd hnames (h names)
  · rw [not_exists] at habsolute
    have helsewhere : ((w.environment "XDG_CONFIG_HOME").bind fun octets =>
        if (FilePath.mk octets).isAbsolute then some (FilePath.mk octets) else none) = none := by
      rw [Option.bind_eq_none_iff]
      intro octets hoctets
      refine if_neg fun hslash => ?_
      obtain ⟨names, rfl⟩ := List.head?_eq_some_iff.1 (beq_iff_eq.1 hslash)
      exact habsolute names hoctets
    rw [helsewhere, Option.none_or, hhome]
    constructor
    · rintro ⟨home, h, rfl⟩
      exact .home habsolute h
    · intro h
      cases h with
      | said h => exact absurd h (habsolute _)
      | home _ h => exact ⟨_, h, rfl⟩

/-- The standard place of a number, if the user has it. -/
def place? (w : World) : Nat → Option FilePath
  | 0 => some (.ofText "/etc/galaxy-gpg/config.toml")
  | 1 => (home? w).map (·.join (.ofText ".galaxy-gpg.toml"))
  | 2 => (configDirectory? w).map (·.join (.ofText "galaxy-gpg/config.toml"))
  | 3 => some (.ofText "galaxy-gpg.toml")
  | _ => none

theorem place?_eq_some_iff {n : Nat} {path : FilePath} :
    place? w n = some path ↔ PlaceAt w n path := by
  constructor
  · intro h
    match n with
    | 0 => cases h; exact .system
    | 1 =>
        obtain ⟨home, hhome, rfl⟩ := Option.map_eq_some_iff.1 h
        exact .user (home?_eq_some_iff.1 hhome)
    | 2 =>
        obtain ⟨directory, hdirectory, rfl⟩ := Option.map_eq_some_iff.1 h
        exact .programs (configDirectory?_eq_some_iff.1 hdirectory)
    | 3 => cases h; exact .project
    | n + 4 => cases h
  · intro h
    cases h with
    | system | project => rfl
    | user h => exact Option.map_eq_some_iff.2 ⟨_, home?_eq_some_iff.2 h, rfl⟩
    | programs h => exact Option.map_eq_some_iff.2 ⟨_, configDirectory?_eq_some_iff.2 h, rfl⟩

theorem standardPaths_eq (w : World) : standardPaths w = (List.range 4).filterMap (place? w) := by
  have hrange : List.range 4 = [0, 1, 2, 3] := rfl
  rw [hrange, standardPaths]
  cases hhome : (home? w).map (·.join (.ofText ".galaxy-gpg.toml")) <;>
    cases hdirectory : (configDirectory? w).map (·.join (.ofText "galaxy-gpg/config.toml")) <;>
    simp [place?, hhome, hdirectory]

/-- The files that are there at the standard places. -/
def present (w : World) : List FilePath :=
  (standardPaths w).filter fun path => (w.look path).isThere

theorem present_iff : Present w paths ↔ paths = present w := by
  have hpresent : present w = (List.range 4).filterMap fun n =>
      (place? w n).filter fun path => (w.look path).isThere := by
    rw [present, standardPaths_eq, List.filter_filterMap]
  have hfile (n : Nat) (path : FilePath) :
      ((place? w n).filter fun path => (w.look path).isThere) = some path ↔
        PlaceAt w n path ∧ (w.look path).isThere = true := by
    rw [Option.filter_eq_some_iff, place?_eq_some_iff]
  constructor
  · rintro ⟨file?, hiff, rfl⟩
    rw [hpresent]
    congr 1
    funext n
    refine Option.ext fun path => ?_
    rw [hiff, hfile]
  · rintro rfl
    exact ⟨_, hfile, hpresent⟩

/-- **Without a named file, the standard ones are layers.** The files that are there at the standard
    places have one order. What they set is what the layers that they hold come to, setting by
    setting, and a fault is that of the first file that does not hold settings. Variables then
    change single settings, but they do not mend a fault. -/
theorem load_layers (w : World) (hunnamed : w.environment nameVariable = none) :
    ∃ files, (∀ paths, Present w paths ↔ paths = files) ∧
    (∀ s, ofFiles w none = .ok s ↔ ∃ layers, ReadAs w files layers ∧ s = layered layers) ∧
    (∀ fault, ofFiles w none = .error fault ↔ FirstFault w files fault) ∧
    (∀ layers, ReadAs w files layers →
      load w none = (withTimeout w (layered layers)).map (withVariables w)) ∧
    ∀ fault, FirstFault w files fault → load w none = .error fault := by
  have hfiles : ofFiles w none = layFiles w standard (present w) := by
    rw [nameVariable] at hunnamed
    simp only [ofFiles, named?, hunnamed]
    rfl
  have hok : ∀ s, ofFiles w none = .ok s ↔
      ∃ layers, ReadAs w (present w) layers ∧ s = layered layers := by
    intro s
    rw [hfiles, layFiles_eq_ok_iff]
  have herror : ∀ fault, ofFiles w none = .error fault ↔ FirstFault w (present w) fault := by
    intro fault
    rw [hfiles, layFiles_eq_error_iff]
  exact ⟨present w, fun paths => present_iff, hok, herror,
    fun layers hlayers => load_of_ofFiles ((hok _).2 ⟨layers, hlayers, rfl⟩),
    fun fault hfault => load_of_ofFiles_fault ((herror fault).2 hfault)⟩

/-- A world with these variables and these files. -/
def worldOfFiles (assigned files : List (String × String)) : World where
  environment name := (assigned.lookup name).map fun text => Text.Utf8.encode text.toList
  look path :=
    match files.find? fun file => FilePath.ofText file.1 = path with
    | some (_, text) => .content (Text.Utf8.encode text.toList)
    | none => .absent .noSuchFile
  input := []
  launcher := ⟨3, fun _ => .ended 0 [] (some 0)⟩

/-- With files at all four places, the keyring is that of the project's file and the level that of
    the file in the directory for programs, although other files say something else. A relative path
    says no such directory, so that it is one of the user's; and where the file there does not hold
    settings, this is the only fault, although the project's file does not either. -/
theorem load_layers_fourFiles :
    load (worldOfFiles [("HOME", "/h"), ("XDG_CONFIG_HOME", "/x")]
        [("galaxy-gpg.toml", "galaxy.gpg_keyring='p'"),
          ("/x/galaxy-gpg/config.toml", "logging.log_level='info'\ngalaxy.gpg_keyring='x'"),
          ("/h/.galaxy-gpg.toml", "logging.log_level='debug'"),
          ("/etc/galaxy-gpg/config.toml", "galaxy.disable_gpg_verify=true")]) none =
      .ok { keyring := some "p", disabled := true, logLevel := "info" } ∧
    load (worldOfFiles [("HOME", "/h"), ("XDG_CONFIG_HOME", "x")]
        [("galaxy-gpg.toml", "["), ("/h/.config/galaxy-gpg/config.toml", "["),
          ("/h/.galaxy-gpg.toml", "logging.log_level='debug'")]) none =
      .error (.malformed (.ofText "/h/.config/galaxy-gpg/config.toml")) := by
  have hproject : ofToml? "galaxy.gpg_keyring='p'".toList = some { keyring := some "p" } := by cbv
  have hprograms : ofToml? "logging.log_level='info'\ngalaxy.gpg_keyring='x'".toList =
    some { keyring := some "x", logLevel := "info" } := by cbv
  have huser : ofToml? "logging.log_level='debug'".toList = some { logLevel := "debug" } := by cbv
  have hsystem : ofToml? "galaxy.disable_gpg_verify=true".toList = some { disabled := true } := by
    cbv
  have hbroken : ofToml? "[".toList = none := by cbv
  constructor
  · obtain ⟨files, hfiles, -, -, hload, -⟩ := load_layers (worldOfFiles
        [("HOME", "/h"), ("XDG_CONFIG_HOME", "/x")]
        [("galaxy-gpg.toml", "galaxy.gpg_keyring='p'"),
          ("/x/galaxy-gpg/config.toml", "logging.log_level='info'\ngalaxy.gpg_keyring='x'"),
          ("/h/.galaxy-gpg.toml", "logging.log_level='debug'"),
          ("/etc/galaxy-gpg/config.toml", "galaxy.disable_gpg_verify=true")]) rfl
    obtain rfl := (hfiles _).1 (present_iff.2 rfl)
    exact hload [{ disabled := true }, { logLevel := "debug" },
        { keyring := some "x", logLevel := "info" }, { keyring := some "p" }]
      (.cons ⟨_, rfl, hsystem⟩ (.cons ⟨_, rfl, huser⟩ (.cons ⟨_, rfl, hprograms⟩
        (.cons ⟨_, rfl, hproject⟩ .nil))))
  · obtain ⟨files, hfiles, -, -, -, hfault⟩ := load_layers (worldOfFiles
        [("HOME", "/h"), ("XDG_CONFIG_HOME", "x")]
        [("galaxy-gpg.toml", "["), ("/h/.config/galaxy-gpg/config.toml", "["),
          ("/h/.galaxy-gpg.toml", "logging.log_level='debug'")]) rfl
    obtain rfl := (hfiles _).1 (present_iff.2 rfl)
    exact hfault _ (.behind ⟨_, rfl, huser⟩ (.here (.malformed rfl hbroken)))

end SigVerdict.Settings
