import SigVerdict.Proofs.Status.Arguments
import SigVerdict.Proofs.Status.WireForm

set_option autoImplicit false

/-! # Lines with a registered keyword

A line whose second word is the keyword of a kind is never skipped: it gives an outcome of this
kind, or a fault that names a declared field (`Answers`). A line has no argument too many, since it
is cut into as many pieces as the kind declares fields, and the last of them is all that is left.

An argument is missing when the line ends too early. As long as there are fewer words behind the
keyword than fields, the arguments are these words (`argumentsOf_eq_words`), so that the words alone
say which argument is missing (`Outcome.read_eq_missing_iff`): all fields in front of a missing one
must have been given, because only the last field of a kind can be left out. -/

namespace SigVerdict.Status

open Text

variable {kind : Kind} {f g : Field} {i j : Nat} {arguments : List String} {line rest : List Char}
  {fault : FieldFault}

/-! ## Names of fields -/

theorem Kind.nodup_names (kind : Kind) : (kind.fields.map Field.name).Nodup := by
  cases kind <;> decide

/-- The fields of a kind have different names. -/
theorem Kind.eq_of_name_eq (hf : kind.fields[i]? = some f) (hg : kind.fields[j]? = some g)
    (hname : f.name = g.name) : i = j := by
  obtain ⟨hi, -⟩ := List.getElem?_eq_some_iff.1 hf
  have hlt : i < (kind.fields.map Field.name).length := by rwa [List.length_map]
  refine (List.getElem?_inj hlt kind.nodup_names).1 ?_
  rw [List.getElem?_map, List.getElem?_map, hf, hg, Option.map_some, Option.map_some, hname]

/-- A field with another one behind it must be given. -/
theorem Kind.mandatory_of_lt (hg : kind.fields[j]? = some g) (hj : j + 1 < kind.fields.length) :
    kind.Mandatory g.name := by
  have hinside : g ∈ kind.fields.dropLast := by
    refine List.mem_of_getElem? (i := j) ?_
    rw [List.getElem?_dropLast, if_pos (by omega), hg]
  by_contra hoptional
  have hmandatory := kind.mandatoryInside g hinside
  rw [(Kind.optional_iff_of_mem_fields (List.mem_of_getElem? hg)).2 hoptional] at hmandatory
  cases hmandatory

/-! ## Missing arguments -/

/-- Behind the last argument an argument is missing, unless the last field alone is without one. -/
theorem exists_faultAt_length (h : arguments.length + 1 < kind.fields.length) :
    ∃ fault, FaultAt kind kind.fields arguments arguments.length fault := by
  have hg := List.getElem?_eq_getElem (Nat.lt_of_succ_lt h)
  exact ⟨_, .missing hg (Kind.mandatory_of_lt hg h) (List.getElem?_eq_none le_rfl)⟩

/-- An argument that gives its field no value is at fault. -/
theorem exists_faultAt_of_not_gives {argument : String} (hg : kind.fields[j]? = some g)
    (hargument : arguments[j]? = some argument) (h : ∀ v, ¬Gives g.name argument v) :
    ∃ fault, FaultAt kind kind.fields arguments j fault := by
  obtain ⟨cause, hcause⟩ := (Field.read_eq_error_iff (List.mem_of_getElem? hg)).1 h
  exact ⟨_, .invalidInteger hg hargument h hcause⟩

/-- An argument that must be given is missing when exactly those in front of it are there, and all
    of them give values. -/
theorem Outcome.read_eq_missing_iff (hfield : kind.fields[i]? = some f)
    (hmandatory : kind.Mandatory f.name) :
    Outcome.read kind arguments = .error (.missing kind f.name) ↔
      arguments.length = i ∧ AllGive kind arguments := by
  obtain ⟨hi, -⟩ := List.getElem?_eq_some_iff.1 hfield
  rw [Outcome.read_eq_error_iff]
  constructor
  · rintro ⟨place, hfault, hbefore⟩
    generalize hother : FieldFault.missing kind f.name = other at hfault
    cases hfault with
    | invalidInteger => cases hother
    | unexpected => cases hother
    | @missing g hg _ hnone =>
        injection hother with _ hname
        have hplace : place = i := Kind.eq_of_name_eq hg hfield hname.symm
        subst hplace
        have hle := List.getElem?_eq_none_iff.1 hnone
        have hlength : arguments.length = place := by
          -- otherwise the argument of a field further in front is missing as well
          by_contra hne
          have hshort : arguments.length + 1 < kind.fields.length := by omega
          obtain ⟨fault, hfault⟩ := exists_faultAt_length hshort
          exact hbefore _ (by omega) fault hfault
        refine ⟨hlength, fun j g' argument hg' hargument => ?_⟩
        obtain ⟨hj, -⟩ := List.getElem?_eq_some_iff.1 hargument
        by_contra hnone
        obtain ⟨fault, hfault⟩ := exists_faultAt_of_not_gives hg' hargument (not_exists.1 hnone)
        exact hbefore j (by omega) fault hfault
  · rintro ⟨hlength, hgive⟩
    have hnone : arguments[i]? = none := List.getElem?_eq_none (Nat.le_of_eq hlength)
    refine ⟨i, .missing hfield hmandatory hnone, fun j hj other hother => ?_⟩
    cases hother with
    | missing _ _ hnone =>
        have hle := List.getElem?_eq_none_iff.1 hnone
        omega
    | invalidInteger hg hargument hnone =>
        obtain ⟨v, hv⟩ := hgive j _ _ hg hargument
        exact hnone v hv
    | unexpected hend => omega

/-! ## Arguments on a line -/

/-- There are as many arguments as words, but no more than fields. -/
theorem length_argumentsOf (kind : Kind) (rest : List Char) :
    (argumentsOf kind rest).length = min kind.fields.length (words rest).length := by
  rw [argumentsOf, List.length_map, length_pieces]

/-- Words that are fewer than the fields are the arguments. -/
theorem argumentsOf_eq_words (h : (words rest).length < kind.fields.length) :
    argumentsOf kind rest = (words rest).map String.ofList := by
  rw [argumentsOf, pieces_eq_words h]

/-- As long as not all fields have an argument, the arguments are the words. -/
theorem argumentsOf_short_iff (hi : i < kind.fields.length) :
    (argumentsOf kind rest).length = i ∧ AllGive kind (argumentsOf kind rest) ↔
      (words rest).length = i ∧ AllGive kind ((words rest).map String.ofList) := by
  have hlength := length_argumentsOf kind rest
  -- a number below the number of fields is not that of the fields, and so it is that of the words
  constructor
  · rintro ⟨hshort, hgive⟩
    have hwords : (words rest).length = i := by omega
    rw [argumentsOf_eq_words (by omega)] at hgive
    exact ⟨hwords, hgive⟩
  · rintro ⟨hwords, hgive⟩
    rw [argumentsOf_eq_words (by omega), List.length_map]
    exact ⟨hwords, hgive⟩

/-! ## Answers -/

/-- What a line with the keyword of a kind is answered by: an outcome of the kind, or a fault of one
    of its declared fields. -/
inductive Answers (kind : Kind) : Except FieldFault (Option Outcome) → Prop where
  | outcome {o : Outcome} (hkind : o.kind = kind) : Answers kind (.ok (some o))
  | missing {f : Field} (hfield : f ∈ kind.fields) (hmandatory : kind.Mandatory f.name) :
      Answers kind (.error (.missing kind f.name))
  | invalidInteger {f : Field} {argument : String} {cause : IntegerFault}
      (hfield : f ∈ kind.fields) :
      Answers kind (.error (.invalidInteger kind f.name argument cause))

theorem answers_read (h : arguments.length ≤ kind.fields.length) :
    Answers kind ((Outcome.read kind arguments).map some) := by
  cases hread : Outcome.read kind arguments with
  | ok o => exact .outcome (Outcome.read_eq_ok_iff.1 hread).1
  | error fault =>
      obtain ⟨i, hfault, -⟩ := Outcome.read_eq_error_iff.1 hread
      cases hfault with
      | missing hfield hmandatory => exact .missing (List.mem_of_getElem? hfield) hmandatory
      | invalidInteger hfield => exact .invalidInteger (List.mem_of_getElem? hfield)
      | unexpected hend hargument =>
          -- no argument stands behind the last field
          obtain ⟨hi, -⟩ := List.getElem?_eq_some_iff.1 hargument
          omega

/-- **A registered keyword is never passed over.** A line whose second word is the keyword of a kind
    gives an outcome of this kind, or a fault that names a declared field as missing or as no
    integer. It is never skipped, it has no argument too many, and when the kind declares no fields
    it gives an outcome in any case. The argument in the `i`-th place is missing exactly when `i`
    words stand behind the keyword and each of them gives its field a value; the text behind an
    error is never missing. -/
theorem decodeLine_keyword (kind : Kind) (line : List Char)
    (hkeyword : (words line)[1]? = some kind.keyword.toList) :
    Answers kind (decodeLine line) ∧
    decodeLine line ≠ .ok none ∧
    (∀ expected word, decodeLine line ≠ .error (.unexpected kind expected word)) ∧
    (kind.fields = [] → ∃ o, decodeLine line = .ok (some o)) ∧
    (∀ i f, kind.fields[i]? = some f → kind.Mandatory f.name →
      (decodeLine line = .error (.missing kind f.name) ↔
        ((words line).drop 2).length = i ∧
          AllGive kind (((words line).drop 2).map String.ofList))) ∧
    decodeLine line ≠ .error (.missing .error "more") := by
  obtain ⟨rest, hwords, hdecode⟩ := exists_rest_of_keyword hkeyword
  have hanswers : Answers kind (decodeLine line) := by
    rw [hdecode]
    apply answers_read
    rw [length_argumentsOf]
    exact Nat.min_le_left _ _
  refine ⟨hanswers, ?_, ?_, ?_, ?_, ?_⟩
  · intro hskipped
    rw [hskipped] at hanswers
    cases hanswers
  · intro expected word hunexpected
    rw [hunexpected] at hanswers
    cases hanswers
  · intro hnone
    generalize decodeLine line = result at hanswers
    cases hanswers with
    | outcome => exact ⟨_, rfl⟩
    | missing hfield =>
        rw [hnone] at hfield
        cases hfield
    | invalidInteger hfield =>
        rw [hnone] at hfield
        cases hfield
  · intro i f hfield hmandatory
    obtain ⟨hi, -⟩ := List.getElem?_eq_some_iff.1 hfield
    rw [hdecode, ← hwords, map_eq_error_iff, Outcome.read_eq_missing_iff hfield hmandatory,
      argumentsOf_short_iff hi]
  · intro hmore
    rw [hmore] at hanswers
    generalize hname : "more" = name at hanswers
    cases hanswers with
    | missing hfield hmandatory => exact hmandatory ⟨rfl, hname.symm⟩

/-- A failure that has no code is short of it, as long as nothing but its location is given. -/
theorem decodeLine_keyword_failure :
    (words "[GNUPG:] FAILURE sign ".toList)[1]? = some Kind.failure.keyword.toList ∧
    decodeLine "[GNUPG:] FAILURE sign ".toList = .error (.missing .failure "code") := by
  have hkeyword : (words "[GNUPG:] FAILURE sign ".toList)[1]? =
      some Kind.failure.keyword.toList := rfl
  obtain ⟨-, -, -, -, hmissing, -⟩ := decodeLine_keyword .failure _ hkeyword
  refine ⟨hkeyword, (hmissing 1 _ rfl (by decide)).2 ⟨rfl, ?_⟩⟩
  intro i f argument hfield hargument
  cases i with
  | zero =>
      cases hfield
      exact ⟨_, .text (by decide) (by decide)⟩
  | succ i => cases hargument

end SigVerdict.Status
