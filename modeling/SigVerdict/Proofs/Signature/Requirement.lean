import Mathlib.Algebra.Group.Nat.Defs
import SigVerdict.Proofs.Except
import SigVerdict.Proofs.Text.Numeral
import SigVerdict.Settings.Basic

set_option autoImplicit false

/-! # Requirements as they are written

A requirement is written as a number of 64 bits that is not zero or as `all`, with a single plus
sign in front when it is strict (`Writes`). A reader takes exactly these texts
(`Requirement.read_eq_ok_iff`). It sees the sign first, and what stands behind the sign then decides
by itself (`reads_readRequired`): digits of any script pass for a number at first, but only those of
ASCII have a value.

A number may be written with zeros in front, and that is all the freedom there is: what is printed
of a requirement is the text it was read from without these zeros (`Writes.render_eq`). -/

namespace SigVerdict.Signature

open Text

/-! ## The grammar -/

/-- What stands in front of a requirement. -/
def sign (strict : Bool) : List Char := if strict then ['+'] else []

/-- A text writes a requirement: `all`, or decimal digits of ASCII for a number that is not zero and
    has 64 bits, with a plus sign in front when the requirement is strict. -/
inductive Writes : List Char → Requirement → Prop where
  | all (strict : Bool) : Writes (sign strict ++ "all".toList) ⟨strict, .all⟩
  | count (strict : Bool) {ds : List Char} {n : Nat} (hdigits : Digits ds n) (hlow : 1 ≤ n)
      (hhigh : n < 2 ^ 64) : Writes (sign strict ++ ds) ⟨strict, .count ⟨n, hlow, hhigh⟩⟩

/-- A row of decimal digits of any scripts, of which there is at least one. -/
def DigitRow (cs : List Char) : Prop := cs ≠ [] ∧ ∀ c ∈ cs, isDecimalDigit c = true

/-- What may stand behind the sign, as far as its characters go. -/
def Body (cs : List Char) : Prop := DigitRow cs ∨ cs = "all".toList

variable {cs ds rest : List Char} {n : Nat}

/-- The wording of a fault tells which fault it is. -/
theorem CountFault.message_inj {cause cause' : CountFault} :
    cause.message = cause'.message ↔ cause = cause' := by
  refine ⟨fun h => ?_, congrArg _⟩
  rcases cause with _ | ⟨_ | _ | _ | _⟩ | _ <;> rcases cause' with _ | ⟨_ | _ | _ | _⟩ | _ <;>
    first | rfl | exact absurd h (by decide)

/-! ## Rows of digits -/

theorem isDigitRow_eq_true_iff : Requirement.isDigitRow cs = true ↔ DigitRow cs := by
  simp [Requirement.isDigitRow, DigitRow]

/-- The digits of ASCII are one row of the decimal digits. -/
theorem isDecimalDigit_of_digitValue? {c : Char} (h : (digitValue? c).isSome = true) :
    isDecimalDigit c = true := by
  obtain ⟨d, hd⟩ := Option.isSome_iff_exists.1 h
  obtain ⟨hlt, rfl⟩ := digitValue?_eq_some_iff.1 hd
  have hall : ∀ d < 10, isDecimalDigit (digitOf d) = true := by decide
  exact hall d hlt

theorem digitRow_of_digits (h : Digits cs n) : DigitRow cs := by
  cases cs with
  | nil => exact absurd rfl h.ne_nil
  | cons c cs =>
      have hdigits := (digits_cons_iff.1 h).1
      refine ⟨List.cons_ne_nil c cs, ?_⟩
      intro d hd
      exact isDecimalDigit_of_digitValue? (hdigits d hd)

theorem DigitRow.ne_all (h : DigitRow cs) : cs ≠ "all".toList := by
  rintro rfl
  have hletter := h.2 'a' (by decide)
  exact absurd hletter (by decide)

/-- What may stand behind the sign has no sign of its own. -/
theorem Body.ne_plus (h : Body cs) (rest : List Char) : cs ≠ '+' :: rest := by
  rintro rfl
  rcases h with hrow | hall
  · have hplus := hrow.2 '+' List.mem_cons_self
    exact absurd hplus (by decide)
  · have hhead := (List.cons.inj hall).1
    exact absurd hhead (by decide)

theorem readNatural_of_digitRow (h : DigitRow cs) {most : Nat} :
    readNatural most cs = .ok n ↔ Digits cs n ∧ n ≤ most := by
  rw [readNatural_eq_ok_iff, saysNatural_iff_digits (Body.ne_plus (Or.inl h))]

/-! ## What stands behind the sign -/

/-- What a text behind the sign is read as. -/
inductive Reads (cs : List Char) : Except CountFault Required → Prop where
  | all (hall : cs = "all".toList) : Reads cs (.ok .all)
  | count {n : Nat} (hdigits : Digits cs n) (hlow : 1 ≤ n) (hhigh : n < 2 ^ 64) :
      Reads cs (.ok (.count ⟨n, hlow, hhigh⟩))
  | zero (hdigits : Digits cs 0) : Reads cs (.error .zero)
  | unreadable {cause : IntegerFault} (hrow : DigitRow cs)
      (hvalue : ∀ n, Digits cs n → 2 ^ 64 ≤ n) : Reads cs (.error (.unreadable cause))
  | malformed (hbody : ¬Body cs) : Reads cs (.error .malformed)

theorem readRequired_of_digits (h : Digits cs n) (hhigh : n < 2 ^ 64) :
    Requirement.readRequired cs =
      if hlow : 1 ≤ n then .ok (.count ⟨n, hlow, hhigh⟩) else .error .zero := by
  have hrow := digitRow_of_digits h
  have hread : readNatural 0xffffffffffffffff cs = .ok n :=
    (readNatural_of_digitRow hrow).2 ⟨h, by omega⟩
  simp only [Requirement.readRequired, if_neg hrow.ne_all, if_pos (isDigitRow_eq_true_iff.2 hrow),
    hread]
  by_cases hlow : 1 ≤ n
  · rw [dif_pos hlow, dif_pos ⟨hlow, hhigh⟩]
  · rw [dif_neg hlow, dif_neg fun hboth => hlow hboth.1]

theorem reads_readRequired (cs : List Char) : Reads cs (Requirement.readRequired cs) := by
  by_cases hall : cs = "all".toList
  · subst hall
    exact .all rfl
  by_cases hrow : DigitRow cs
  · cases hread : readNatural 0xffffffffffffffff cs with
    | error cause =>
        simp only [Requirement.readRequired, if_neg hall, if_pos (isDigitRow_eq_true_iff.2 hrow),
          hread]
        refine .unreadable hrow ?_
        intro n hdigits
        by_contra hlt
        have hle : n ≤ 0xffffffffffffffff := Nat.le_of_lt_succ (Nat.not_le.1 hlt)
        cases hread.symm.trans ((readNatural_of_digitRow hrow).2 ⟨hdigits, hle⟩)
    | ok n =>
        obtain ⟨hdigits, hle⟩ := (readNatural_of_digitRow hrow).1 hread
        rw [readRequired_of_digits hdigits (Nat.lt_succ_of_le hle)]
        by_cases hlow : 1 ≤ n
        · rw [dif_pos hlow]
          exact .count hdigits hlow (Nat.lt_succ_of_le hle)
        · rw [dif_neg hlow]
          rw [Nat.eq_zero_of_not_pos hlow] at hdigits
          exact .zero hdigits
  · have hdigits := mt isDigitRow_eq_true_iff.1 hrow
    rw [Requirement.readRequired, if_neg hall, if_neg hdigits]
    refine .malformed ?_
    rintro (h | h)
    · exact hrow h
    · exact hall h

/-! ## The sign -/

/-- A text is read as what stands behind its sign. -/
theorem exists_sign (cs : List Char) :
    ∃ strict ds, cs = sign strict ++ ds ∧
      Requirement.read cs = (Requirement.readRequired ds).map (⟨strict, ·⟩) := by
  unfold Requirement.read
  split
  · next rest => exact ⟨true, rest, rfl, rfl⟩
  · exact ⟨false, cs, rfl, rfl⟩

theorem read_sign (strict : Bool) (h : Body ds) :
    Requirement.read (sign strict ++ ds) = (Requirement.readRequired ds).map (⟨strict, ·⟩) := by
  cases strict with
  | true => rfl
  | false =>
      show Requirement.read ds = _
      unfold Requirement.read
      split
      · next rest => exact absurd rfl (h.ne_plus rest)
      · rfl

/-- A reader takes exactly the texts that write a requirement. -/
theorem Requirement.read_eq_ok_iff {r : Requirement} :
    Requirement.read cs = .ok r ↔ Writes cs r := by
  constructor
  · intro h
    obtain ⟨strict, ds, rfl, hread⟩ := exists_sign cs
    rw [hread, map_eq_ok_iff] at h
    obtain ⟨required, hrequired, rfl⟩ := h
    have hreads := reads_readRequired ds
    rw [hrequired] at hreads
    cases hreads with
    | all hall =>
        subst hall
        exact .all strict
    | count hdigits hlow hhigh => exact .count strict hdigits hlow hhigh
  · intro h
    cases h with
    | all strict =>
        rw [read_sign strict (Or.inr rfl)]
        rfl
    | count strict hdigits hlow hhigh =>
        rw [read_sign strict (Or.inl (digitRow_of_digits hdigits)),
          readRequired_of_digits hdigits hhigh, dif_pos hlow]
        rfl

theorem Requirement.read_eq_malformed_iff :
    Requirement.read cs = .error .malformed ↔ ¬∃ strict ds, cs = sign strict ++ ds ∧ Body ds := by
  constructor
  · rintro h ⟨strict, ds, rfl, hbody⟩
    rw [read_sign strict hbody, map_eq_error_iff] at h
    have hreads := reads_readRequired ds
    rw [h] at hreads
    cases hreads with
    | malformed hnone => exact hnone hbody
  · intro h
    obtain ⟨strict, ds, hcs, hread⟩ := exists_sign cs
    rw [hread, map_eq_error_iff]
    have hreads := reads_readRequired ds
    have hbody : ¬Body ds := fun hbody => h ⟨strict, ds, hcs, hbody⟩
    generalize Requirement.readRequired ds = result at hreads
    cases hreads with
    | all hall => exact absurd (Or.inr hall) hbody
    | count hdigits => exact absurd (Or.inl (digitRow_of_digits hdigits)) hbody
    | zero hdigits => exact absurd (Or.inl (digitRow_of_digits hdigits)) hbody
    | unreadable hrow => exact absurd (Or.inl hrow) hbody
    | malformed => rfl

theorem Requirement.read_eq_zero_iff :
    Requirement.read cs = .error .zero ↔ ∃ strict ds, cs = sign strict ++ ds ∧ Digits ds 0 := by
  constructor
  · intro h
    obtain ⟨strict, ds, hcs, hread⟩ := exists_sign cs
    rw [hread, map_eq_error_iff] at h
    have hreads := reads_readRequired ds
    rw [h] at hreads
    cases hreads with
    | zero hdigits => exact ⟨strict, ds, hcs, hdigits⟩
  · rintro ⟨strict, ds, rfl, hdigits⟩
    rw [read_sign strict (Or.inl (digitRow_of_digits hdigits)), map_eq_error_iff,
      readRequired_of_digits hdigits (by decide), dif_neg (by decide)]

/-! ## The normal form -/

/-- A text without the zeros that stand at its beginning, or behind a plus sign there. -/
def withoutZeros : List Char → List Char
  | '+' :: ds => '+' :: ds.dropWhile (· == '0')
  | ds => ds.dropWhile (· == '0')

theorem withoutZeros_sign (strict : Bool) (h : Body ds) :
    withoutZeros (sign strict ++ ds) = sign strict ++ ds.dropWhile (· == '0') := by
  cases strict with
  | true => rfl
  | false =>
      show withoutZeros ds = _
      unfold withoutZeros
      split
      · next rest => exact absurd rfl (h.ne_plus rest)
      · rfl

variable {r : Requirement}

/-- A requirement is printed as it is written, without the zeros in front. -/
theorem Writes.render_eq (h : Writes cs r) : r.render = withoutZeros cs := by
  cases h with
  | all strict =>
      rw [withoutZeros_sign strict (Or.inr rfl)]
      rfl
  | count strict hdigits hlow hhigh =>
      rw [withoutZeros_sign strict (Or.inl (digitRow_of_digits hdigits)),
        hdigits.dropWhile_eq_digits hlow]
      rfl

theorem writes_render (r : Requirement) : Writes r.render r := by
  obtain ⟨strict, required⟩ := r
  cases required with
  | all => exact .all strict
  | count n => exact .count strict (digits_digits n.value) n.pos n.lt

end SigVerdict.Signature

namespace SigVerdict.Settings

open Signature Text

/-! ## Requirements of settings -/

theorem readRequirement_eq_ok_iff {text : String} {requirement : Requirement} :
    readRequirement text = .ok requirement ↔ Requirement.read text.toList = .ok requirement := by
  rw [readRequirement]
  cases Requirement.read text.toList with
  | error cause => exact ⟨nofun, nofun⟩
  | ok read => rw [Except.mapError, Except.ok.injEq, Except.ok.injEq]

/-- The texts that are read as a requirement are those that write it. -/
theorem readRequirement_eq_ok_iff_writes {text : String} {requirement : Requirement} :
    readRequirement text = .ok requirement ↔ Writes text.toList requirement :=
  readRequirement_eq_ok_iff.trans Requirement.read_eq_ok_iff

theorem readRequirement_eq_error_iff (text : String) (cause : CountFault) :
    readRequirement text = .error (.invalidCount text cause.message) ↔
      Requirement.read text.toList = .error cause := by
  rw [readRequirement, mapError_eq_error_iff]
  simp [CountFault.message_inj]

/-- A text is a requirement or is refused as it is. -/
theorem readRequirement_eq_ok_or_error (text : String) :
    (∃ requirement, readRequirement text = .ok requirement) ∨
      ∃ reason, readRequirement text = .error (.invalidCount text reason) := by
  rw [readRequirement]
  cases Requirement.read text.toList with
  | error found => exact Or.inr ⟨found.message, rfl⟩
  | ok read => exact Or.inl ⟨read, rfl⟩

/-- **Exactly the grammar of requirements is read.** Every other text is refused as it is: as
    malformed when what stands behind the sign is neither `all` nor a row of decimal digits of any
    scripts, and for requiring nothing when it is a row of digits of ASCII for zero. -/
theorem readRequirement_grammar (text : String) :
    (∀ requirement, readRequirement text = .ok requirement ↔ Writes text.toList requirement) ∧
    ((∃ reason, readRequirement text = .error (.invalidCount text reason)) ↔
      ∀ requirement, ¬Writes text.toList requirement) ∧
    (readRequirement text = .error
        (.invalidCount text "expected a number or 'all', optionally prefixed with '+'") ↔
      ¬∃ strict body, text.toList = sign strict ++ body ∧ (DigitRow body ∨ body = "all".toList)) ∧
    (readRequirement text = .error
        (.invalidCount text "at least one signature must be required") ↔
      ∃ strict ds, text.toList = sign strict ++ ds ∧ Digits ds 0) := by
  refine ⟨fun requirement => readRequirement_eq_ok_iff_writes, ?_, ?_, ?_⟩
  · constructor
    · rintro ⟨reason, hreason⟩ requirement hwrites
      cases hreason.symm.trans (readRequirement_eq_ok_iff_writes.2 hwrites)
    · intro hnone
      rcases readRequirement_eq_ok_or_error text with ⟨requirement, hok⟩ | herror
      · exact absurd (readRequirement_eq_ok_iff_writes.1 hok) (hnone requirement)
      · exact herror
  · exact (readRequirement_eq_error_iff text .malformed).trans Requirement.read_eq_malformed_iff
  · exact (readRequirement_eq_error_iff text .zero).trans Requirement.read_eq_zero_iff

-- A digit of another script stands where a digit may stand, and is refused for having no value.
example : readRequirement "+٣" = .error (.invalidCount "+٣" "invalid digit found in string") := by
  decide

/-- **Printing and reading requirements are inverse.** What is printed is read back; and what was
    read is printed without the zeros in front of its digits, which are all that two texts of one
    requirement may differ in. -/
theorem readRequirement_toText :
    (∀ requirement, readRequirement requirement.toText = .ok requirement) ∧
    (∀ text requirement, readRequirement text = .ok requirement →
      requirement.toText.toList = withoutZeros text.toList) ∧
    (∀ text text' requirement requirement',
      readRequirement text = .ok requirement → readRequirement text' = .ok requirement' →
      (requirement = requirement' ↔ withoutZeros text.toList = withoutZeros text'.toList)) ∧
    ∀ text printed, (readRequirement text).map Requirement.toText = .ok printed →
      (readRequirement printed).map Requirement.toText = .ok printed := by
  have hback : ∀ requirement, readRequirement requirement.toText = .ok requirement := by
    intro requirement
    rw [readRequirement_eq_ok_iff_writes, Requirement.toText, String.toList_ofList]
    exact writes_render requirement
  have hprinted : ∀ text requirement, readRequirement text = .ok requirement →
      requirement.toText.toList = withoutZeros text.toList := by
    intro text requirement h
    rw [Requirement.toText, String.toList_ofList]
    exact (readRequirement_eq_ok_iff_writes.1 h).render_eq
  refine ⟨hback, hprinted, ?_, ?_⟩
  · intro text text' requirement requirement' h h'
    rw [← hprinted text requirement h, ← hprinted text' requirement' h', String.toList_inj]
    constructor
    · exact congrArg Requirement.toText
    · intro htext
      have hread := hback requirement
      rw [htext, hback requirement', Except.ok.injEq] at hread
      exact hread.symm
  · intro text printed h
    obtain ⟨requirement, -, rfl⟩ := map_eq_ok_iff.1 h
    rw [hback requirement]
    rfl

theorem readRequirement_toText_seven :
    readRequirement "+007" = .ok ⟨true, .count ⟨7, by decide, by decide⟩⟩ ∧
      readRequirement "+7" = .ok ⟨true, .count ⟨7, by decide, by decide⟩⟩ ∧
      withoutZeros "+007".toList = withoutZeros "+7".toList := by
  have hzeros : readRequirement "+007" = .ok ⟨true, .count ⟨7, by decide, by decide⟩⟩ := by decide
  have hnone : readRequirement "+7" = .ok ⟨true, .count ⟨7, by decide, by decide⟩⟩ := by decide
  refine ⟨hzeros, hnone, ?_⟩
  exact (readRequirement_toText.2.2.1 _ _ _ _ hzeros hnone).1 rfl

end SigVerdict.Settings
