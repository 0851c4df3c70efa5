import SigVerdict.Format.Document
import SigVerdict.Proofs.Status.Keyword
import SigVerdict.Status.Outcome

set_option autoImplicit false

/-! # The views of an outcome

An outcome is told in several ways: as the list of its arguments, as a document, and by the key that
it is about. All of them say the same (`Outcome.ViewsAgree`). What carries this is that the fields
of a kind have different names, so that a name stands for one place (`valueOf_eq_some`), and what is
found by the name is what stands there.

The arguments can be read back, and this gives the same outcome. If arguments are read first, then
each of them is told as it is, or by the numeral of the number that it says (`Restates`). -/

namespace SigVerdict.Status

open Text

variable {kind : Kind} {f : Field} {fs : List Field} {v : Value} {vs : List Value} {name : String}
  {arguments : List String}

/-! ## Values by name -/

/-- The value of a field among given ones. -/
def valueOf (fs : List Field) (vs : List Value) (name : String) : Option Value :=
  (fs.zip vs).findSome? fun (f, v) => if f.name == name then some v else none

/-- The names of fields with their written values. -/
def writtenFields (fs : List Field) (vs : List Value) : List (String × String) :=
  (fs.zip vs).filterMap fun (f, v) => v.written?.map (f.name, ·)

theorem valueOf_cons_self (f : Field) (fs : List Field) (v : Value) (vs : List Value) :
    valueOf (f :: fs) (v :: vs) f.name = some v := by
  simp [valueOf]

theorem valueOf_cons_of_ne (h : f.name ≠ name) :
    valueOf (f :: fs) (v :: vs) name = valueOf fs vs name := by
  simp [valueOf, h]

/-- Fields with different names hold the values that stand at their places. -/
theorem valueOf_eq_some (hnodup : (fs.map Field.name).Nodup) (hmem : (f, v) ∈ fs.zip vs) :
    valueOf fs vs f.name = some v := by
  induction fs generalizing vs with
  | nil => cases hmem
  | cons g gs ih =>
      cases vs with
      | nil => cases hmem
      | cons w ws =>
          rw [List.map_cons, List.nodup_cons] at hnodup
          rw [List.zip_cons_cons, List.mem_cons] at hmem
          rcases hmem with heq | hmem
          · cases heq
            exact valueOf_cons_self f gs v ws
          · have hname : f.name ∈ gs.map Field.name :=
              List.mem_map_of_mem (List.of_mem_zip hmem).1
            rw [valueOf_cons_of_ne fun heq => hnodup.1 (heq ▸ hname)]
            exact ih hnodup.2 hmem

theorem mem_zip_of_getElem? {i : Nat} (hf : fs[i]? = some f) (hv : vs[i]? = some v) :
    (f, v) ∈ fs.zip vs :=
  List.mem_iff_getElem?.2 ⟨i, List.getElem?_zip_eq_some.2 ⟨hf, hv⟩⟩

theorem valueOf_eq_none (h : name ∉ fs.map Field.name) : valueOf fs vs name = none := by
  rw [valueOf, List.findSome?_eq_none_iff]
  intro place hplace
  have hne : place.1.name ≠ name := by
    rintro rfl
    exact h (List.mem_map_of_mem (List.of_mem_zip hplace).1)
  simp [hne]

/-- A value that is found by a name belongs to a field with this name. -/
theorem exists_field_of_valueOf (h : valueOf fs vs name = some v) :
    ∃ f, (f, v) ∈ fs.zip vs ∧ f.name = name := by
  obtain ⟨place, hplace, heq⟩ := List.exists_of_findSome?_eq_some h
  obtain ⟨f, w⟩ := place
  dsimp only at heq
  split at heq
  · next hname =>
      cases heq
      exact ⟨f, hplace, beq_iff_eq.1 hname⟩
  · cases heq

theorem exists_written (h : v ≠ .absent) : ∃ s, v.written? = some s := by
  cases v with
  | text s => exact ⟨s, rfl⟩
  | number n => exact ⟨integerText n, rfl⟩
  | absent => exact absurd rfl h

theorem writtenFields_cons_of_some {s : String} (h : v.written? = some s) (f : Field)
    (fs : List Field) (vs : List Value) :
    writtenFields (f :: fs) (v :: vs) = (f.name, s) :: writtenFields fs vs := by
  simp [writtenFields, h]

theorem writtenFields_cons_of_none (h : v.written? = none) (f : Field) (fs : List Field)
    (vs : List Value) : writtenFields (f :: fs) (v :: vs) = writtenFields fs vs := by
  simp [writtenFields, h]

/-- What is written under a name is the value that is found by it. -/
theorem lookup_writtenFields (hnodup : (fs.map Field.name).Nodup) (name : String) :
    (writtenFields fs vs).lookup name = (valueOf fs vs name).bind Value.written? := by
  induction fs generalizing vs with
  | nil => rfl
  | cons f fs ih =>
      cases vs with
      | nil => rfl
      | cons v vs =>
          rw [List.map_cons, List.nodup_cons] at hnodup
          have hrest : (writtenFields fs vs).lookup name =
              (valueOf fs vs name).bind Value.written? := ih hnodup.2
          by_cases hname : f.name = name
          · subst hname
            rw [valueOf_cons_self]
            cases hwritten : v.written? with
            | some s =>
                rw [writtenFields_cons_of_some hwritten, List.lookup_cons_self]
                exact hwritten.symm
            | none =>
                -- the name does not come again
                rw [valueOf_eq_none hnodup.1] at hrest
                rw [writtenFields_cons_of_none hwritten, hrest]
                exact hwritten.symm
          · rw [valueOf_cons_of_ne hname, ← hrest]
            cases hwritten : v.written? with
            | some s =>
                have hbeq : (name == f.name) = false := by simpa using Ne.symm hname
                rw [writtenFields_cons_of_some hwritten, List.lookup_cons, hbeq]
            | none => rw [writtenFields_cons_of_none hwritten]

/-- The names of what is written are the names of the fields in their order, but for those whose
    value is absent. -/
theorem map_fst_writtenFields (hnodup : (fs.map Field.name).Nodup)
    (hlength : vs.length = fs.length) :
    (writtenFields fs vs).map Prod.fst =
      (fs.map Field.name).filter fun name => valueOf fs vs name ≠ some .absent := by
  induction fs generalizing vs with
  | nil => rfl
  | cons f fs ih =>
      obtain ⟨v, vs, rfl⟩ := List.exists_cons_of_length_eq_add_one hlength
      rw [List.map_cons, List.nodup_cons] at hnodup
      have hbehind : (fs.map Field.name).filter
            (fun name => valueOf (f :: fs) (v :: vs) name ≠ some .absent) =
          (fs.map Field.name).filter fun name => valueOf fs vs name ≠ some .absent := by
        refine List.filter_congr fun name hname => ?_
        rw [valueOf_cons_of_ne]
        rintro rfl
        exact hnodup.1 hname
      have hrest := ih hnodup.2 (Nat.succ.inj hlength)
      rw [List.map_cons, List.filter_cons, valueOf_cons_self, hbehind, ← hrest]
      by_cases habsent : v = .absent
      · subst habsent
        rw [writtenFields_cons_of_none rfl, if_neg (by simp)]
      · obtain ⟨s, hs⟩ := exists_written habsent
        rw [writtenFields_cons_of_some hs, if_pos (by simpa using habsent), List.map_cons]

/-- What is made of each field and its value can be made by the name of the field. -/
theorem map_zip_eq_map_valueOf {α : Type} (make : Field → Option Value → α)
    (hnodup : (fs.map Field.name).Nodup) (hlength : vs.length = fs.length) :
    ((fs.zip vs).map fun place => make place.1 (some place.2)) =
      fs.map fun f => make f (valueOf fs vs f.name) := by
  have hfields : (fs.zip vs).map Prod.fst = fs := List.map_fst_zip (Nat.le_of_eq hlength.symm)
  calc (fs.zip vs).map (fun place => make place.1 (some place.2))
      = (fs.zip vs).map fun place => make place.1 (valueOf fs vs place.1.name) := by
        refine List.map_congr_left fun place hplace => ?_
        rw [valueOf_eq_some hnodup hplace]
    _ = ((fs.zip vs).map Prod.fst).map fun f => make f (valueOf fs vs f.name) := by
        rw [List.map_map]
        rfl
    _ = fs.map fun f => make f (valueOf fs vs f.name) := by rw [hfields]

/-! ## The document -/

/-- What JSON shows of a field: a text as it is, a number in its digits, and null for nothing. -/
def shown : FieldType → Option String → Json
  | _, none => .null
  | .text, some s => .text s
  | .integer _, some s => .number s.toList

theorem ofDocument_document (h : f.Accepts v) :
    Json.ofDocument v.document = shown f.type v.written? := by
  cases v with
  | text s =>
      simp only [Field.Accepts] at h
      rw [h]
      rfl
  | number n =>
      obtain ⟨range, htype, -⟩ := h
      rw [htype]
      show Json.number (integerDigits n) = Json.number (integerText n).toList
      rw [integerText, String.toList_ofList]
  | absent => rfl

/-- No field is called like the member of a document that holds the keyword. -/
theorem Kind.nodup_keys (kind : Kind) : ("status" :: kind.fields.map Field.name).Nodup := by
  cases kind <;> decide

/-! ## Arguments that are read -/

/-- What an argument is told as when it has been read for a field: under the name of the field, a
    text as it is, and an integer in the canonical way to write the number that it says between
    blanks. -/
inductive Restates : Field × String → String × String → Prop where
  | text {f : Field} (htype : f.type = .text) (argument : String) :
      Restates (f, argument) (f.name, argument)
  | integer {f : Field} {range : IntegerRange} (htype : f.type = .integer range)
      {argument numeral : String} {n : Int} (hsaid : range.Says (trim argument.toList) n)
      (hcanonical : Canonical numeral.toList n) : Restates (f, argument) (f.name, numeral)

/-- A value that is read is written, and this restates the argument. -/
theorem Field.restates_of_read {argument : String} (h : f.read argument = .ok v) :
    ∃ s, v.written? = some s ∧ Restates (f, argument) (f.name, s) := by
  cases htype : f.type with
  | text =>
      rw [Field.read, htype] at h
      cases h
      exact ⟨argument, rfl, .text htype argument⟩
  | integer range =>
      rw [Field.read, htype] at h
      obtain ⟨n, hn, rfl⟩ := map_eq_ok_iff.1 h
      refine ⟨integerText n, rfl, .integer htype (readInteger_eq_ok_iff.1 hn).1 ?_⟩
      rw [canonical_iff, integerText, String.toList_ofList]

theorem restates_of_readValues (h : readValues kind fs arguments = .ok vs) :
    List.Forall₂ Restates (fs.zip arguments) (writtenFields fs vs) := by
  induction fs generalizing arguments vs with
  | nil => exact .nil
  | cons f fs ih =>
      cases arguments with
      | nil =>
          -- nothing is read any more, and the value is absent
          rw [readValues] at h
          split at h
          · obtain ⟨ws, hws, rfl⟩ := map_eq_ok_iff.1 h
            rw [writtenFields_cons_of_none rfl]
            have hrest := ih hws
            rwa [List.zip_nil_right] at hrest ⊢
          · cases h
      | cons argument arguments =>
          rw [readValues] at h
          split at h
          · cases h
          · next v hv =>
              obtain ⟨ws, hws, rfl⟩ := map_eq_ok_iff.1 h
              obtain ⟨s, hs, hrestates⟩ := Field.restates_of_read hv
              rw [writtenFields_cons_of_some hs, List.zip_cons_cons]
              exact .cons hrestates (ih hws)

/-! ## Outcomes -/

variable {o : Outcome}

theorem Outcome.length_values (o : Outcome) : o.values.length = o.kind.fields.length :=
  o.fit.forall₂.length_eq.symm

theorem Outcome.accepts_of_mem_zip (h : (f, v) ∈ o.kind.fields.zip o.values) : f.Accepts v :=
  (List.forall₂_iff_zip.1 o.fit.forall₂).2 h

theorem Outcome.accepts_of_value? (h : o.value? name = some v) :
    ∃ f ∈ o.kind.fields, f.name = name ∧ f.Accepts v := by
  obtain ⟨f, hmem, hname⟩ := exists_field_of_valueOf h
  exact ⟨f, (List.of_mem_zip hmem).1, hname, accepts_of_mem_zip hmem⟩

/-- Nothing but the text behind an error is absent. -/
theorem Outcome.eq_more_of_absent (h : o.value? name = some .absent) :
    o.kind = .error ∧ name = "more" := by
  obtain ⟨f, hf, rfl, hoptional⟩ := accepts_of_value? h
  by_contra hmandatory
  exact (Kind.optional_iff_of_mem_fields hf).1 hoptional hmandatory

theorem Outcome.exists_value? (h : name ∈ o.kind.fields.map Field.name) :
    ∃ v, o.value? name = some v := by
  obtain ⟨f, hf, rfl⟩ := List.mem_map.1 h
  obtain ⟨i, hi⟩ := List.mem_iff_getElem?.1 hf
  obtain ⟨hlt, -⟩ := List.getElem?_eq_some_iff.1 hi
  rw [← o.length_values] at hlt
  have hmem := mem_zip_of_getElem? hi (List.getElem?_eq_getElem hlt)
  exact ⟨_, valueOf_eq_some o.kind.nodup_names hmem⟩

theorem Outcome.lookup_arguments (o : Outcome) (name : String) :
    o.arguments.lookup name = (o.value? name).bind Value.written? :=
  lookup_writtenFields o.kind.nodup_names name

/-- The key is told by a field that is a text wherever it is declared. -/
theorem Outcome.keyId?_eq_lookup (o : Outcome) : o.keyId? = o.arguments.lookup "keyid" := by
  rw [lookup_arguments, keyId?]
  cases hvalue : o.value? "keyid" with
  | none => rfl
  | some v =>
      obtain ⟨f, hf, hname, haccepts⟩ := accepts_of_value? hvalue
      cases v with
      | text s => rfl
      | number n =>
          obtain ⟨range, htype, -⟩ := haccepts
          rw [Kind.type_of_mem_fields hf, hname] at htype
          cases htype
      | absent => rfl

theorem Outcome.isSome_keyId?_iff (o : Outcome) :
    o.keyId?.isSome = true ↔ "keyid" ∈ o.kind.fields.map Field.name := by
  rw [keyId?_eq_lookup, lookup_arguments]
  constructor
  · intro h
    by_contra hnone
    rw [value?, ← valueOf, valueOf_eq_none hnone] at h
    cases h
  · intro h
    obtain ⟨v, hv⟩ := o.exists_value? h
    have hpresent : v ≠ .absent := by
      rintro rfl
      exact absurd (eq_more_of_absent hv).2 (by decide)
    obtain ⟨s, hs⟩ := exists_written hpresent
    rw [hv, Option.bind_some, hs]
    rfl

/-- In JSON, an outcome is its keyword and then, for each field, what is written under its name. -/
theorem Outcome.ofDocument_eq (o : Outcome) :
    Json.ofDocument o.document = .object ((some "status", .text o.kind.keyword) ::
      o.kind.fields.map fun f => (some f.name, shown f.type (o.arguments.lookup f.name))) := by
  let member (f : Field) (v : Option Value) : Option String × Json :=
    (some f.name, shown f.type (v.bind Value.written?))
  have hplaces : ((o.kind.fields.zip o.values).map fun place =>
        (some place.1.name, Json.ofDocument place.2.document)) =
      (o.kind.fields.zip o.values).map fun place => member place.1 (some place.2) := by
    refine List.map_congr_left fun place hplace => ?_
    rw [ofDocument_document (accepts_of_mem_zip hplace)]
    rfl
  have hnames := map_zip_eq_map_valueOf member o.kind.nodup_names o.length_values
  simp only [lookup_arguments]
  rw [document, Json.ofDocument, Json.ofFields_eq_map, List.map_cons, List.map_map]
  exact congrArg (fun members => Json.object ((some "status", .text o.kind.keyword) :: members))
    (hplaces.trans hnames)

/-- When no value is absent, there is something under every name. -/
theorem Outcome.names_of_present (h : .absent ∉ o.values) :
    o.arguments.map Prod.fst = o.kind.fields.map Field.name := by
  refine (map_fst_writtenFields o.kind.nodup_names o.length_values).trans ?_
  rw [List.filter_eq_self]
  intro name _
  rw [decide_eq_true_iff]
  intro habsent
  obtain ⟨f, hmem, -⟩ := exists_field_of_valueOf habsent
  exact h (List.of_mem_zip hmem).2

/-- When a value is absent, it is the text behind an error, and all else is there. -/
theorem Outcome.names_of_absent (h : .absent ∈ o.values) :
    o.kind = .error ∧ o.arguments.map Prod.fst = ["location", "code"] := by
  obtain ⟨i, hi⟩ := List.mem_iff_getElem?.1 h
  obtain ⟨hlt, -⟩ := List.getElem?_eq_some_iff.1 hi
  rw [o.length_values] at hlt
  have hmem := mem_zip_of_getElem? (List.getElem?_eq_getElem hlt) hi
  have hvalue := valueOf_eq_some o.kind.nodup_names hmem
  obtain ⟨hkind, hname⟩ := eq_more_of_absent hvalue
  have hnames : o.kind.fields.map Field.name = ["location", "code", "more"] := by rw [hkind]; rfl
  have hother : ∀ name ≠ "more", valueOf o.kind.fields o.values name ≠ some .absent :=
    fun name hne habsent => hne (eq_more_of_absent habsent).2
  refine ⟨hkind, (map_fst_writtenFields o.kind.nodup_names o.length_values).trans ?_⟩
  rw [hname] at hvalue
  rw [hnames, List.filter_cons_of_pos (by simpa using hother "location" (by decide)),
    List.filter_cons_of_pos (by simpa using hother "code" (by decide)),
    List.filter_cons_of_neg (by simpa using hvalue)]
  rfl

/-- What is told of an outcome in different ways is the same. -/
structure Outcome.ViewsAgree (o : Outcome) : Prop where
  length_values : o.values.length = o.kind.fields.length
  /-- A value is written under the name of the field at whose place it stands. -/
  lookup : ∀ (i : Nat) (f : Field) (v : Value), o.kind.fields[i]? = some f → o.values[i]? = some v →
    o.arguments.lookup f.name = v.written?
  names : .absent ∉ o.values → o.arguments.map Prod.fst = o.kind.fields.map Field.name
  /-- Nothing but the text behind an error is ever absent. -/
  absent : .absent ∈ o.values → o.kind = .error ∧ o.arguments.map Prod.fst = ["location", "code"]
  values : o.arguments.map Prod.snd = o.values.filterMap Value.written?
  read : Outcome.read o.kind (o.arguments.map Prod.snd) = .ok o
  document : Json.ofDocument o.document = .object ((some "status", .text o.kind.keyword) ::
    o.kind.fields.map fun f => (some f.name, shown f.type (o.arguments.lookup f.name)))
  keys : ("status" :: o.kind.fields.map Field.name).Nodup
  keyId : o.keyId? = o.arguments.lookup "keyid"
  isSome_keyId : o.keyId?.isSome = true ↔ "keyid" ∈ o.kind.fields.map Field.name

theorem Outcome.viewsAgree (o : Outcome) : o.ViewsAgree where
  length_values := o.length_values
  lookup i f v hf hv := by
    have hvalue := valueOf_eq_some o.kind.nodup_names (mem_zip_of_getElem? hf hv)
    rw [o.lookup_arguments, value?, ← valueOf, hvalue, Option.bind_some]
  names := names_of_present
  absent := names_of_absent
  values := arguments_eq_written o.fit.forall₂
  read := by
    rw [arguments, arguments_eq_written o.fit.forall₂]
    exact o.read_written
  document := o.ofDocument_eq
  keys := o.kind.nodup_keys
  keyId := o.keyId?_eq_lookup
  isSome_keyId := o.isSome_keyId?_iff

/-- **The views of an outcome agree.** And when arguments have been read, each of them is told under
    the name of its field: a text as it was, and an integer by its numeral. -/
theorem Outcome.views_agree :
    (∀ o : Outcome, o.ViewsAgree) ∧
    ∀ kind arguments o, Outcome.read kind arguments = .ok o →
      o.kind = kind ∧ o.arguments.length = arguments.length ∧
        List.Forall₂ Restates (kind.fields.zip arguments) o.arguments := by
  refine ⟨viewsAgree, fun kind arguments o h => ?_⟩
  have htakes := takes_of_read h
  obtain ⟨rfl, hvalues⟩ := read_eq_ok_iff.1 h
  have hrestates := restates_of_readValues hvalues
  refine ⟨rfl, ?_, hrestates⟩
  show (writtenFields o.kind.fields o.values).length = _
  rw [← hrestates.length_eq, List.length_zip, Nat.min_eq_right htakes.le_length]

/-- A code with blanks, a sign and zeros around it is told by its numeral. -/
theorem Outcome.views_agree_failure :
    Outcome.read .failure ["sign", " +007 "] =
        .ok ⟨.failure, [.text "sign", .number 7], rfl, ⟨.word32, rfl, by decide⟩, trivial⟩ ∧
      List.Forall₂ Restates (Kind.failure.fields.zip ["sign", " +007 "])
        [("location", "sign"), ("code", "7")] := by
  have hread : Outcome.read .failure ["sign", " +007 "] =
    .ok ⟨.failure, [.text "sign", .number 7], rfl, ⟨.word32, rfl, by decide⟩, trivial⟩ := rfl
  have hnumeral : integerText 7 = "7" :=
    String.toList_inj.1 (String.toList_ofList.trans (digits_of_lt (by decide)))
  refine ⟨hread, ?_⟩
  rw [← hnumeral]
  exact (views_agree.2 _ _ _ hread).2.2

end SigVerdict.Status
