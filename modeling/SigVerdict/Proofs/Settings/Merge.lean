import SigVerdict.Proofs.Except
import SigVerdict.Proofs.Settings.Reading

set_option autoImplicit false

/-! # The laws of layers

Laying settings over others has the laws of a monoid in which everything is idempotent
(`merge_laws`). Each setting has a rule of its own for when the upper value covers the lower one,
and each of these rules has the laws; the standard settings are what covers nothing. Only for the
path of the command this is not quite so: all ways to write the standard path count as standard, so
that one of them over the standard settings leaves the standard path (`respelt`).

A file is laid over the standard settings. So what it says is what comes out, with whatever it does
not say at its standard value. -/

namespace SigVerdict.Settings

variable {α : Type} {isStandard : α → Bool} {x y z : α}

/-! ## Covering -/

theorem cover_assoc :
    cover isStandard x (cover isStandard y z) = cover isStandard (cover isStandard x y) z := by
  unfold cover
  cases hz : isStandard z with
  | true => simp only [if_true]
  | false => simp [hz]

theorem cover_self : cover isStandard x x = x := ite_self x

/-- When only one value is standard, anything may be laid over it. -/
theorem cover_standard (h : isStandard y = true → y = x) : cover isStandard x y = y := by
  unfold cover
  split
  · next hy => exact (h hy).symm
  · rfl

/-! ## Paths -/

theorem samePath_refl (a : String) : samePath a a = true := by
  simp [samePath, FilePath.sameAs]

/-- Settings are the same, but that the path of the command may be written in another way. -/
structure SameButPath (a b : Settings) : Prop where
  samePath : samePath a.executable b.executable = true
  others : { a with executable := b.executable } = b

/-- Settings with the standard path of the command in place of other ways to write it. -/
def respelt (s : Settings) : Settings :=
  { s with executable := cover (samePath standard.executable) standard.executable s.executable }

theorem respelt_of_standard {s : Settings} (h : samePath standard.executable s.executable = true) :
    s.respelt = { s with executable := standard.executable } := by
  rw [respelt, cover, if_pos h]

theorem respelt_of_not_standard {s : Settings}
    (h : ¬samePath standard.executable s.executable = true) : s.respelt = s := by
  rw [respelt, cover, if_neg h]

theorem respelt_sameButPath (s : Settings) : SameButPath s.respelt s := by
  by_cases h : samePath standard.executable s.executable = true
  · rw [respelt_of_standard h]
    exact ⟨h, rfl⟩
  · rw [respelt_of_not_standard h]
    exact ⟨samePath_refl s.executable, rfl⟩

/-! ## Laying settings over others -/

variable (a b c : Settings)

theorem merge_assoc : a.merge (b.merge c) = (a.merge b).merge c := by
  simp only [merge, cover_assoc, Option.or_assoc, Bool.or_assoc]

theorem merge_standard : a.merge standard = a := by
  have hpath : samePath standard.executable standard.executable = true := samePath_refl _
  simp only [merge, cover, hpath, if_true]
  rfl

theorem standard_merge : standard.merge a = a.respelt := by
  have hcount : cover (· == standard.requiredCount) standard.requiredCount a.requiredCount =
      a.requiredCount := cover_standard beq_iff_eq.1
  have hcodes : cover List.isEmpty standard.ignoredCodes a.ignoredCodes = a.ignoredCodes :=
    cover_standard List.isEmpty_iff.1
  have hlevel : cover (· == standard.logLevel) standard.logLevel a.logLevel = a.logLevel :=
    cover_standard beq_iff_eq.1
  rw [merge, hcount, hcodes, hlevel]
  simp only [standard, Option.or_none, Bool.or_false]
  rfl

theorem merge_self : a.merge a = a := by
  simp only [merge, cover_self, Option.or_self, Bool.or_self]

/-! ## Files -/

theorem readFile_eq_ok_iff {w : World} {path : FilePath} {s : Settings} :
    readFile w path = .ok s ↔ Holds w path s := by
  refine ⟨fun h => ?_, readFile_of_holds⟩
  rcases holds_or_fails w path with ⟨held, hheld⟩ | ⟨fault, hfails⟩
  · cases (readFile_of_holds hheld).symm.trans h
    exact hheld
  · cases (readFile_of_fails hfails).symm.trans h

/-- The settings of a file are what its text says, with the standard path written as such. -/
theorem ofFile_eq_ok_iff {w : World} {path : FilePath} {s : Settings} :
    ofFile w path = .ok s ↔
      ∃ text file, w.readText path = .ok text ∧
        (Format.ofExtension path.extension).Says text.toList file ∧ s = file.respelt := by
  simp only [ofFile, layFile, map_eq_ok_iff, readFile_eq_ok_iff, Holds,
    Format.read?_eq_some_iff, standard_merge]
  constructor
  · rintro ⟨file, ⟨text, htext, hnumber⟩, rfl⟩
    exact ⟨text, file, htext, hnumber, rfl⟩
  · rintro ⟨text, file, htext, hnumber, rfl⟩
    exact ⟨file, ⟨text, htext, hnumber⟩, rfl⟩

/-- **The laws of layers.** In which order settings are laid over each other makes no difference,
    only what is above what. The standard settings change nothing, neither above nor below, but for
    the way in which the standard path of the command is written; and nothing changes settings that
    are laid over themselves. A verification that one layer disables is disabled. So the settings of
    a file are those that its text says, up to the path of the command, with everything that is
    missing at its standard value. -/
theorem merge_laws :
    (∀ a b c : Settings, a.merge (b.merge c) = (a.merge b).merge c) ∧
    (∀ a : Settings, a.merge standard = a) ∧
    (∀ a : Settings, standard.merge a = a.respelt ∧ SameButPath a.respelt a) ∧
    (∀ a : Settings, a.merge a = a) ∧
    (∀ a b : Settings, (a.merge b).disabled = (a.disabled || b.disabled)) ∧
    ∀ (w : World) (path : FilePath) (s : Settings), ofFile w path = .ok s ↔
      ∃ text file, w.readText path = .ok text ∧
        (Format.ofExtension path.extension).Says text.toList file ∧ s = file.respelt :=
  ⟨merge_assoc, merge_standard, fun a => ⟨standard_merge a, respelt_sameButPath a⟩, merge_self,
    fun a b => Bool.or_comm b.disabled a.disabled, fun _ _ _ => ofFile_eq_ok_iff⟩

example : standard.merge { executable := "./gpg/" } ≠ standard ∧
    standard.merge { executable := "gpg//." } = standard := by decide

end SigVerdict.Settings
