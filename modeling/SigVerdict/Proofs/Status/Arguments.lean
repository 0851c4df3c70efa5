import Mathlib.Algebra.Group.Int.Defs
import Mathlib.Algebra.Group.Nat.Defs
import SigVerdict.Proofs.Status.Grammar
import SigVerdict.Proofs.Text.Integer

set_option autoImplicit false

/-! # What arguments are read as

Each declared field has its place in a list of arguments. At its place, an argument gives the field
a value or none (`Gives`), and no argument at all is as good as a value only for the text that may
follow an error (`Kind.Mandatory`). Arguments are read as an outcome exactly when every place is
filled and none is left over, and then the values are those that stand at their places (`Filled`).

Otherwise some places are at fault (`FaultAt`), and what is reported is the fault of the first one.
Both halves go by the same step: the first place is filled, and then the others decide, or it is at
fault, and then nothing else matters (`readValues_cons`). -/

namespace SigVerdict.Status

open Text

/-! ## Places -/

/-- The fields that hold a number of 32 bits. -/
def wordFields : List String := ["pkalgo", "hashalgo", "rc", "code"]

/-- The fields that hold a point in time, as an integer of 64 bits. -/
def timeFields : List String := ["time", "timestamp"]

/-- An argument gives a field of this name a value: the number that it says between blanks, if this
    is in the range of the field, or the argument as it is. -/
inductive Gives (name argument : String) : Value → Prop where
  | word {n : Nat} (hname : name ∈ wordFields) (hsaid : SaysNatural (trim argument.toList) n)
      (hhigh : n < 2 ^ 32) : Gives name argument (.number n)
  | time {n : Int} (hname : name ∈ timeFields) (hsaid : SaysInteger (trim argument.toList) n)
      (hlow : -2 ^ 63 ≤ n) (hhigh : n < 2 ^ 63) : Gives name argument (.number n)
  | text (hword : name ∉ wordFields) (htime : name ∉ timeFields) :
      Gives name argument (.text argument)

/-- An argument must be given for every field, but for the text that may follow an error. -/
def Kind.Mandatory (kind : Kind) (name : String) : Prop := ¬(kind = .error ∧ name = "more")

instance (kind : Kind) (name : String) : Decidable (kind.Mandatory name) :=
  inferInstanceAs (Decidable ¬(_ ∧ _))

/-- What stands at the place of a field, which may be nothing, fills the field with a value. -/
inductive Fills (kind : Kind) (name : String) : Option String → Value → Prop where
  | given {argument : String} {v : Value} (hgives : Gives name argument v) :
      Fills kind name (some argument) v
  | absent (hoptional : ¬kind.Mandatory name) : Fills kind name none .absent

/-- Values are those that the arguments fill the fields with, and no argument is left over. -/
structure Filled (kind : Kind) (fs : List Field) (arguments : List String) (vs : List Value) :
    Prop where
  no_more : arguments.length ≤ fs.length
  length_eq : vs.length = fs.length
  fills : ∀ (i : Nat) (f : Field) (v : Value), fs[i]? = some f → vs[i]? = some v →
    Fills kind f.name arguments[i]? v

/-- Every argument that has a field gives it a value. -/
def AllGive (kind : Kind) (arguments : List String) : Prop :=
  ∀ (i : Nat) (f : Field) argument, kind.fields[i]? = some f → arguments[i]? = some argument →
    ∃ v, Gives f.name argument v

/-- A place of a list of arguments is at fault: an argument is missing there, or it gives the field
    no value, or it stands behind the last field. -/
inductive FaultAt (kind : Kind) (fs : List Field) (arguments : List String) (i : Nat) :
    FieldFault → Prop where
  | missing {f : Field} (hfield : fs[i]? = some f) (hmandatory : kind.Mandatory f.name)
      (hnone : arguments[i]? = none) : FaultAt kind fs arguments i (.missing kind f.name)
  | invalidInteger {f : Field} {argument : String} {cause : IntegerFault} (hfield : fs[i]? = some f)
      (hargument : arguments[i]? = some argument) (hgives : ∀ v, ¬Gives f.name argument v)
      (hcause : f.read argument = .error cause) :
      FaultAt kind fs arguments i (.invalidInteger kind f.name argument cause)
  | unexpected {argument : String} (hend : i = fs.length)
      (hargument : arguments[i]? = some argument) :
      FaultAt kind fs arguments i (.unexpected kind kind.fields.length argument)

/-- The fault of the first place that is at fault. -/
def FirstFault (kind : Kind) (fs : List Field) (arguments : List String) (fault : FieldFault) :
    Prop :=
  ∃ i, FaultAt kind fs arguments i fault ∧ ∀ j < i, ∀ other, ¬FaultAt kind fs arguments j other

/-! ## One place -/

variable {kind : Kind} {f : Field} {fs : List Field} {argument : String} {arguments : List String}
  {v : Value} {vs : List Value} {fault : FieldFault}

/-- The name of a declared field says which type it has. -/
theorem Kind.type_of_mem_fields (hf : f ∈ kind.fields) :
    f.type = if f.name ∈ wordFields then .integer .word32
      else if f.name ∈ timeFields then .integer .signed64 else .text := by
  have hall : ∀ f ∈ kind.fields, f.type = if f.name ∈ wordFields then .integer .word32
      else if f.name ∈ timeFields then .integer .signed64 else .text := by
    cases kind <;> decide
  exact hall f hf

theorem Kind.optional_iff_of_mem_fields (hf : f ∈ kind.fields) :
    f.optional = true ↔ ¬kind.Mandatory f.name := by
  have hall : ∀ f ∈ kind.fields, f.optional = true ↔ ¬kind.Mandatory f.name := by
    cases kind <;> decide
  exact hall f hf

theorem not_mem_timeFields_of_mem_wordFields {name : String} (h : name ∈ wordFields) :
    name ∉ timeFields := by
  have hall : ∀ name ∈ wordFields, name ∉ timeFields := by decide
  exact hall name h

theorem gives_iff_of_word {name : String} (h : name ∈ wordFields) :
    Gives name argument v ↔
      ∃ n : Nat, SaysNatural (trim argument.toList) n ∧ n < 2 ^ 32 ∧ v = .number n := by
  constructor
  · intro hgives
    cases hgives with
    | word hname hsaid hhigh => exact ⟨_, hsaid, hhigh, rfl⟩
    | time htime => exact absurd htime (not_mem_timeFields_of_mem_wordFields h)
    | text hword => exact absurd h hword
  · rintro ⟨n, hsaid, hhigh, rfl⟩
    exact .word h hsaid hhigh

theorem gives_iff_of_time {name : String} (h : name ∈ timeFields) :
    Gives name argument v ↔
      ∃ n, SaysInteger (trim argument.toList) n ∧ -2 ^ 63 ≤ n ∧ n < 2 ^ 63 ∧ v = .number n := by
  constructor
  · intro hgives
    cases hgives with
    | word hword => exact absurd h (not_mem_timeFields_of_mem_wordFields hword)
    | time hname hsaid hlow hhigh => exact ⟨_, hsaid, hlow, hhigh, rfl⟩
    | text hword htime => exact absurd h htime
  · rintro ⟨n, hsaid, hlow, hhigh, rfl⟩
    exact .time h hsaid hlow hhigh

/-- The argument of a declared field is read as the value that it gives. -/
theorem Field.read_eq_ok_iff (hf : f ∈ kind.fields) :
    f.read argument = .ok v ↔ Gives f.name argument v := by
  have htype := Kind.type_of_mem_fields hf
  unfold Field.read
  split_ifs at htype with hword htime
  · simp only [htype, map_eq_ok_iff, readInteger_eq_ok_iff, gives_iff_of_word hword,
      IntegerRange.word32, IntegerRange.Says, IntegerRange.Holds]
    constructor
    · rintro ⟨k, ⟨⟨n, hsaid, rfl⟩, -, hle⟩, rfl⟩
      exact ⟨n, hsaid, by omega, rfl⟩
    · rintro ⟨n, hsaid, hhigh, rfl⟩
      exact ⟨n, ⟨⟨n, hsaid, rfl⟩, by omega, by omega⟩, rfl⟩
  · simp only [htype, map_eq_ok_iff, readInteger_eq_ok_iff, gives_iff_of_time htime,
      IntegerRange.signed64, IntegerRange.Says, IntegerRange.Holds]
    constructor
    · rintro ⟨k, ⟨hsaid, hlow, hle⟩, rfl⟩
      exact ⟨k, hsaid, by omega, by omega, rfl⟩
    · rintro ⟨k, hsaid, hlow, hhigh, rfl⟩
      exact ⟨k, ⟨hsaid, by omega, by omega⟩, rfl⟩
  · simp only [htype, Except.ok.injEq]
    constructor
    · rintro rfl
      exact .text hword htime
    · intro hgives
      cases hgives with
      | word hname => exact absurd hname hword
      | time hname => exact absurd hname htime
      | text => rfl

/-- An argument gives a declared field no value exactly when the field cannot read it. -/
theorem Field.read_eq_error_iff (hf : f ∈ kind.fields) :
    (∀ v, ¬Gives f.name argument v) ↔ ∃ cause, f.read argument = .error cause := by
  simp only [← Field.read_eq_ok_iff hf]
  cases hread : f.read argument with
  | error cause => simp
  | ok v => simp

/-! ## The first place and the others -/

theorem filled_nil_iff : Filled kind [] arguments vs ↔ arguments = [] ∧ vs = [] := by
  constructor
  · intro h
    exact ⟨List.length_eq_zero_iff.1 (Nat.le_zero.1 h.no_more),
      List.length_eq_zero_iff.1 h.length_eq⟩
  · rintro ⟨rfl, rfl⟩
    exact ⟨Nat.le_refl 0, rfl, nofun⟩

theorem filled_cons_iff :
    Filled kind (f :: fs) arguments (v :: vs) ↔
      Fills kind f.name arguments[0]? v ∧ Filled kind fs arguments.tail vs := by
  constructor
  · intro h
    refine ⟨h.fills 0 f v rfl rfl, ?_, by simpa using h.length_eq, fun i g w hg hw => ?_⟩
    · have hle := h.no_more
      rw [List.length_cons] at hle
      rw [List.length_tail]
      omega
    · rw [List.getElem?_tail]
      exact h.fills (i + 1) g w hg hw
  · rintro ⟨hfills, h⟩
    refine ⟨?_, by simpa using h.length_eq, fun i g w hg hw => ?_⟩
    · have hle := h.no_more
      rw [List.length_tail] at hle
      rw [List.length_cons]
      omega
    · cases i with
      | zero =>
          cases hg
          cases hw
          exact hfills
      | succ i =>
          rw [← List.getElem?_tail]
          exact h.fills i g w hg hw

/-- There is one fault at a place at most. -/
theorem FaultAt.unique {i : Nat} {other : FieldFault} (h : FaultAt kind fs arguments i fault)
    (hother : FaultAt kind fs arguments i other) : fault = other := by
  -- whether the place has an argument, and whether it has a field, tells the cases apart
  cases h with
  | missing hfield hmandatory hnone =>
      cases hother with
      | missing hfield' =>
          cases hfield.symm.trans hfield'
          rfl
      | invalidInteger _ hargument => cases hnone.symm.trans hargument
      | unexpected _ hargument => cases hnone.symm.trans hargument
  | invalidInteger hfield hargument hgives hcause =>
      cases hother with
      | missing _ _ hnone => cases hnone.symm.trans hargument
      | invalidInteger hfield' hargument' _ hcause' =>
          cases hfield.symm.trans hfield'
          cases hargument.symm.trans hargument'
          cases hcause.symm.trans hcause'
          rfl
      | unexpected hend =>
          rw [List.getElem?_eq_none (Nat.le_of_eq hend.symm)] at hfield
          cases hfield
  | unexpected hend hargument =>
      cases hother with
      | missing _ _ hnone => cases hnone.symm.trans hargument
      | invalidInteger hfield =>
          rw [List.getElem?_eq_none (Nat.le_of_eq hend.symm)] at hfield
          cases hfield
      | unexpected _ hargument' =>
          cases hargument.symm.trans hargument'
          rfl

/-- The places behind the first one are those of the other fields and arguments. -/
theorem faultAt_succ_iff {i : Nat} :
    FaultAt kind (f :: fs) arguments (i + 1) fault ↔ FaultAt kind fs arguments.tail i fault := by
  constructor
  · intro h
    cases h with
    | missing hfield hmandatory hnone =>
        exact .missing hfield hmandatory (by rwa [List.getElem?_tail])
    | invalidInteger hfield hargument hgives hcause =>
        exact .invalidInteger hfield (by rwa [List.getElem?_tail]) hgives hcause
    | unexpected hend hargument =>
        exact .unexpected (Nat.succ.inj hend) (by rwa [List.getElem?_tail])
  · intro h
    cases h with
    | missing hfield hmandatory hnone =>
        exact .missing hfield hmandatory (by rwa [← List.getElem?_tail])
    | invalidInteger hfield hargument hgives hcause =>
        exact .invalidInteger hfield (by rwa [← List.getElem?_tail]) hgives hcause
    | unexpected hend hargument =>
        exact .unexpected (congrArg Nat.succ hend) (by rwa [← List.getElem?_tail])

/-- A fault of the first place is the first fault. -/
theorem FaultAt.firstFault_iff {other : FieldFault} (h : FaultAt kind fs arguments 0 fault) :
    FirstFault kind fs arguments other ↔ fault = other := by
  constructor
  · rintro ⟨i, hother, hbefore⟩
    cases i with
    | zero => exact h.unique hother
    | succ i => exact absurd h (hbefore 0 (Nat.succ_pos i) fault)
  · rintro rfl
    exact ⟨0, h, nofun⟩

/-- Without a fault of the first place, the first fault is that of the others. -/
theorem firstFault_cons_iff (h : ∀ other, ¬FaultAt kind (f :: fs) arguments 0 other) :
    FirstFault kind (f :: fs) arguments fault ↔ FirstFault kind fs arguments.tail fault := by
  constructor
  · rintro ⟨i, hfault, hbefore⟩
    cases i with
    | zero => exact absurd hfault (h fault)
    | succ i =>
        refine ⟨i, faultAt_succ_iff.1 hfault, fun j hj other hother => ?_⟩
        exact hbefore (j + 1) (Nat.succ_lt_succ hj) other (faultAt_succ_iff.2 hother)
  · rintro ⟨i, hfault, hbefore⟩
    refine ⟨i + 1, faultAt_succ_iff.2 hfault, fun j hj other hother => ?_⟩
    cases j with
    | zero => exact h other hother
    | succ j => exact hbefore j (Nat.lt_of_succ_lt_succ hj) other (faultAt_succ_iff.1 hother)

/-! ## Reading, place by place -/

/-- There is one value at a place at most. -/
theorem Fills.unique {given : Option String} {w : Value} (hf : f ∈ kind.fields)
    (h : Fills kind f.name given v) (hother : Fills kind f.name given w) : v = w := by
  cases h with
  | given hgives =>
      cases hother with
      | given hother =>
          have hread := (Field.read_eq_ok_iff hf).2 hgives
          cases hread.symm.trans ((Field.read_eq_ok_iff hf).2 hother)
          rfl
  | absent =>
      cases hother with
      | absent => rfl

/-- A place that is filled is not at fault. -/
theorem Fills.not_faultAt (h : Fills kind f.name arguments[0]? v) :
    ¬FaultAt kind (f :: fs) arguments 0 fault := by
  intro hfault
  generalize hplace : arguments[0]? = given at h
  cases hfault with
  | missing hfield hmandatory hnone =>
      cases hfield
      cases h with
      | given => cases hnone.symm.trans hplace
      | absent hoptional => exact hoptional hmandatory
  | invalidInteger hfield hargument hgives =>
      cases hfield
      cases h with
      | given hgiven =>
          cases hargument.symm.trans hplace
          exact hgives v hgiven
      | absent => cases hargument.symm.trans hplace
  | unexpected hend => cases hend

/-- One step: the first place is filled, and its value stands in front of what is read behind it; or
    it is at fault, and this fault is the result. -/
theorem readValues_cons (hf : f ∈ kind.fields) (fs : List Field) (arguments : List String) :
    (∃ v, Fills kind f.name arguments[0]? v ∧ readValues kind (f :: fs) arguments =
      (readValues kind fs arguments.tail).map (v :: ·)) ∨
    ∃ fault, FaultAt kind (f :: fs) arguments 0 fault ∧
      readValues kind (f :: fs) arguments = .error fault := by
  have hoptional := Kind.optional_iff_of_mem_fields hf
  cases arguments with
  | nil =>
      -- nothing is left for this field, nor for those behind it
      by_cases hmandatory : kind.Mandatory f.name
      · refine Or.inr ⟨_, .missing rfl hmandatory rfl, ?_⟩
        rw [readValues, if_neg (by rwa [hoptional, not_not])]
      · refine Or.inl ⟨_, .absent hmandatory, ?_⟩
        rw [readValues, if_pos (hoptional.2 hmandatory), List.tail_nil]
  | cons argument arguments =>
      cases hread : f.read argument with
      | error cause =>
          have hgives := (Field.read_eq_error_iff hf).2 ⟨cause, hread⟩
          refine Or.inr ⟨_, .invalidInteger rfl rfl hgives hread, ?_⟩
          rw [readValues, hread]
      | ok v =>
          refine Or.inl ⟨v, .given ((Field.read_eq_ok_iff hf).1 hread), ?_⟩
          rw [readValues, hread, List.tail_cons]

/-- The values that are read are those that the arguments fill the fields with. -/
theorem readValues_eq_ok_iff (hfs : ∀ f ∈ fs, f ∈ kind.fields) :
    readValues kind fs arguments = .ok vs ↔ Filled kind fs arguments vs := by
  induction fs generalizing arguments vs with
  | nil =>
      rw [filled_nil_iff]
      cases arguments with
      | nil =>
          rw [readValues, Except.ok.injEq, eq_comm]
          exact ⟨fun h => ⟨rfl, h⟩, fun h => h.2⟩
      | cons argument arguments =>
          constructor
          · intro h
            cases h
          · rintro ⟨hnil, -⟩
            cases hnil
  | cons f fs ih =>
      rw [List.forall_mem_cons] at hfs
      obtain ⟨hf, hfs⟩ := hfs
      -- values of several fields have a first one, which fills the first field
      have hsplit : Filled kind (f :: fs) arguments vs →
          ∃ w ws, vs = w :: ws ∧ Fills kind f.name arguments[0]? w ∧
            Filled kind fs arguments.tail ws := by
        intro h
        obtain ⟨w, ws, rfl⟩ := List.exists_cons_of_length_eq_add_one h.length_eq
        exact ⟨w, ws, rfl, filled_cons_iff.1 h⟩
      rcases readValues_cons hf fs arguments with ⟨v, hv, hread⟩ | ⟨fault, hfault, hread⟩
      · rw [hread, map_eq_ok_iff]
        constructor
        · rintro ⟨ws, hws, rfl⟩
          exact filled_cons_iff.2 ⟨hv, (ih hfs).1 hws⟩
        · intro h
          obtain ⟨w, ws, rfl, hw, hws⟩ := hsplit h
          rw [hv.unique hf hw]
          exact ⟨ws, (ih hfs).2 hws, rfl⟩
      · rw [hread]
        constructor
        · intro h
          cases h
        · intro h
          obtain ⟨w, ws, -, hw, -⟩ := hsplit h
          exact absurd hfault hw.not_faultAt

/-- The fault that is reported is that of the first place at fault. -/
theorem readValues_eq_error_iff (hfs : ∀ f ∈ fs, f ∈ kind.fields) :
    readValues kind fs arguments = .error fault ↔ FirstFault kind fs arguments fault := by
  induction fs generalizing arguments with
  | nil =>
      cases arguments with
      | nil =>
          -- no field wants an argument, and there is none
          constructor
          · intro h
            cases h
          · rintro ⟨i, hfault, -⟩
            cases hfault with
            | missing hfield => cases hfield
            | invalidInteger hfield => cases hfield
            | unexpected _ hargument => cases hargument
      | cons argument arguments =>
          rw [FaultAt.firstFault_iff (.unexpected rfl rfl), readValues, Except.error.injEq]
  | cons f fs ih =>
      rw [List.forall_mem_cons] at hfs
      rcases readValues_cons hfs.1 fs arguments with ⟨v, hv, hread⟩ | ⟨fault, hfault, hread⟩
      · rw [hread, firstFault_cons_iff fun other => hv.not_faultAt, ← ih hfs.2]
        cases readValues kind fs arguments.tail with
        | error other => rfl
        | ok ws =>
            constructor
            · intro h
              cases h
            · intro h
              cases h
      · rw [hread, hfault.firstFault_iff, Except.error.injEq]

/-! ## Outcomes -/

theorem Outcome.read_eq_ok_iff_filled {o : Outcome} :
    Outcome.read kind arguments = .ok o ↔
      o.kind = kind ∧ Filled kind kind.fields arguments o.values := by
  rw [Outcome.read_eq_ok_iff, readValues_eq_ok_iff fun f hf => hf]

theorem Outcome.read_eq_error_iff :
    Outcome.read kind arguments = .error fault ↔
      FirstFault kind kind.fields arguments fault := by
  rw [← readValues_eq_error_iff fun f hf => hf]
  unfold Outcome.read
  split
  · next other h => simp [h]
  · next values h => simp [h]

/-- When a kind takes so many arguments, no argument is missing. -/
theorem Kind.Takes.not_mandatory {n i : Nat} (h : kind.Takes n) (hn : n ≤ i)
    (hfield : kind.fields[i]? = some f) : ¬kind.Mandatory f.name := by
  obtain ⟨hi, -⟩ := List.getElem?_eq_some_iff.1 hfield
  rcases h with rfl | ⟨rfl, rfl⟩
  · exact absurd hi (Nat.not_lt.2 hn)
  · have htwo : i = 2 := Nat.le_antisymm (Nat.le_of_lt_succ hi) hn
    subst htwo
    cases hfield
    decide

theorem Kind.Takes.le_length {n : Nat} (h : kind.Takes n) : n ≤ kind.fields.length := by
  rcases h with rfl | ⟨rfl, rfl⟩
  · exact Nat.le_refl _
  · decide

/-- Arguments of the right number are all at their places, so that only a value can be at fault. -/
theorem Outcome.exists_read_of_takes (htakes : kind.Takes arguments.length)
    (hgive : AllGive kind arguments) : ∃ o, Outcome.read kind arguments = .ok o := by
  cases hread : Outcome.read kind arguments with
  | ok o => exact ⟨o, rfl⟩
  | error fault =>
      obtain ⟨i, hfault, -⟩ := Outcome.read_eq_error_iff.1 hread
      cases hfault with
      | missing hfield hmandatory hnone =>
          have hi := List.getElem?_eq_none_iff.1 hnone
          exact absurd hmandatory (htakes.not_mandatory hi hfield)
      | invalidInteger hfield hargument hnone =>
          obtain ⟨v, hv⟩ := hgive _ _ _ hfield hargument
          exact absurd hv (hnone v)
      | unexpected hend hargument =>
          obtain ⟨hi, -⟩ := List.getElem?_eq_some_iff.1 hargument
          have hle := htakes.le_length
          omega

/-- An argument at the place of a field gives the field its value. -/
theorem Filled.gives (h : Filled kind fs arguments vs) {i : Nat} (hfield : fs[i]? = some f)
    (hargument : arguments[i]? = some argument) : ∃ v, Gives f.name argument v := by
  obtain ⟨hi, -⟩ := List.getElem?_eq_some_iff.1 hfield
  rw [← h.length_eq] at hi
  have hfills := h.fills i f vs[i] hfield (List.getElem?_eq_getElem hi)
  rw [hargument] at hfills
  cases hfills with
  | given hgives => exact ⟨_, hgives⟩

/-- **Reading arguments.** Arguments are read as an outcome of a kind exactly when they fill the
    declared fields with its values. They are read as some outcome exactly when there are as many of
    them as the kind takes and each gives its field a value. In all other cases a place is at fault,
    and the first such place is reported. -/
theorem Outcome.read_arguments (kind : Kind) (arguments : List String) :
    (∀ o, Outcome.read kind arguments = .ok o ↔
      o.kind = kind ∧ Filled kind kind.fields arguments o.values) ∧
    ((∃ o, Outcome.read kind arguments = .ok o) ↔
      kind.Takes arguments.length ∧ AllGive kind arguments) ∧
    ∀ fault, Outcome.read kind arguments = .error fault ↔
      ∃ i, FaultAt kind kind.fields arguments i fault ∧
        ∀ j < i, ∀ other, ¬FaultAt kind kind.fields arguments j other := by
  refine ⟨fun o => Outcome.read_eq_ok_iff_filled, ⟨?_, ?_⟩, fun fault => Outcome.read_eq_error_iff⟩
  · rintro ⟨o, ho⟩
    have hfilled := (Outcome.read_eq_ok_iff_filled.1 ho).2
    exact ⟨Outcome.takes_of_read ho, fun i f argument => hfilled.gives⟩
  · rintro ⟨htakes, hgive⟩
    exact Outcome.exists_read_of_takes htakes hgive

/-- A word where a number should be is reported before all that is missing behind it. -/
example : Outcome.read .errSig ["01", " +1 ", "x"] =
    .error (.invalidInteger .errSig "hashalgo" "x" .invalidDigit) := rfl

end SigVerdict.Status
