import SigVerdict.Proofs.Except
import SigVerdict.Proofs.Text.Token
import SigVerdict.Status.Stream

set_option autoImplicit false

/-! # The grammar of status lines

A line says something about a kind when its second word is the keyword of this kind. A kind without
fields takes no notice of what follows; of all others the line has to supply the arguments
(`Supplies`), parted by gaps, of which only the last declared one may hold blanks. Decoding a line
gives an outcome exactly when the line states it in this sense (`States`), skips the line exactly
when its second word is missing or unknown (`Skipped`), and refuses all other lines
(`decodeLine_grammar`).

Decoding cuts the line twice, first behind the keyword and then between the arguments. What it finds
behind the keyword is all that it depends on (`decodeLine_eq_decodeKeyword`), so that the first word
of a line has no influence. -/

namespace SigVerdict.Status

open Text

/-! ## Reading arguments -/

theorem Outcome.read_eq_ok_iff {kind : Kind} {arguments : List String} {o : Outcome} :
    Outcome.read kind arguments = .ok o ↔
      o.kind = kind ∧ readValues kind kind.fields arguments = .ok o.values := by
  unfold Outcome.read
  split
  · next fault h => simp [h]
  · next values h =>
      constructor
      · rintro ⟨⟩
        exact ⟨rfl, h⟩
      · rintro ⟨rfl, hvalues⟩
        cases h.symm.trans hvalues
        rfl

/-- Arguments that are read are no more than the fields, and only optional fields are without
    one. -/
theorem length_of_readValues {kind : Kind} {fs : List Field} {arguments : List String}
    {vs : List Value} (h : readValues kind fs arguments = .ok vs) :
    arguments.length ≤ fs.length ∧ ∀ f ∈ fs.drop arguments.length, f.optional = true := by
  induction fs generalizing arguments vs with
  | nil =>
      cases arguments with
      | nil => exact ⟨Nat.le_refl 0, nofun⟩
      | cons => cases h
  | cons f fs ih =>
      cases arguments with
      | nil =>
          rw [readValues] at h
          split at h
          · next hoptional =>
              obtain ⟨ws, hws, -⟩ := map_eq_ok_iff.1 h
              exact ⟨Nat.zero_le _, List.forall_mem_cons.2 ⟨hoptional, (ih hws).2⟩⟩
          · cases h
      | cons argument arguments =>
          rw [readValues] at h
          split at h
          · cases h
          · obtain ⟨ws, hws, -⟩ := map_eq_ok_iff.1 h
            exact ⟨Nat.succ_le_succ (ih hws).1, (ih hws).2⟩

/-- Only an error may be short of an argument, and of a single one. -/
theorem Kind.eq_error_of_optional {kind : Kind} {n : Nat} (hn : n < kind.fields.length)
    (h : ∀ f ∈ kind.fields.drop n, f.optional = true) : kind = .error ∧ n = 2 := by
  have hall : ∀ n < kind.fields.length, (∀ f ∈ kind.fields.drop n, f.optional = true) →
      kind = .error ∧ n = 2 := by
    cases kind <;> decide
  exact hall n hn h

/-- So many arguments are as many as a kind declares; those of an error may be two only. -/
def Kind.Takes (kind : Kind) (n : Nat) : Prop :=
  n = kind.fields.length ∨ kind = .error ∧ n = 2

theorem Outcome.takes_of_read {kind : Kind} {arguments : List String} {o : Outcome}
    (h : Outcome.read kind arguments = .ok o) : kind.Takes arguments.length := by
  obtain ⟨hle, hoptional⟩ := length_of_readValues (read_eq_ok_iff.1 h).2
  rcases Nat.eq_or_lt_of_le hle with heq | hlt
  · exact Or.inl heq
  · exact Or.inr (Kind.eq_error_of_optional hlt hoptional)

/-- A kind that takes no arguments at all declares no fields. -/
theorem Kind.Takes.fields_eq_nil {kind : Kind} (h : kind.Takes 0) : kind.fields = [] := by
  rcases h with h | ⟨-, h⟩
  · exact List.length_eq_zero_iff.1 h.symm
  · cases h

/-- An outcome of a kind without fields has no values. -/
theorem Outcome.values_eq_nil {o : Outcome} (h : o.kind.fields = []) : o.values = [] := by
  have hfit := o.fit
  rw [h] at hfit
  cases hvalues : o.values with
  | nil => rfl
  | cons v vs =>
      rw [hvalues] at hfit
      exact hfit.elim

/-- A kind without fields has a single outcome. -/
theorem Outcome.read_of_no_fields {o : Outcome} (h : o.kind.fields = []) :
    Outcome.read o.kind [] = .ok o := by
  rw [read_eq_ok_iff, h, values_eq_nil h]
  exact ⟨rfl, rfl⟩

/-! ## What is said of lines -/

/-- A line that says nothing: it has no second word, or its second word is no keyword. -/
def Skipped (line : List Char) : Prop :=
  (words line).length < 2 ∨
    ∃ word, (words line)[1]? = some word ∧ ∀ kind : Kind, word ≠ kind.keyword.toList

/-- A line supplies arguments to a kind: it has a marker, the keyword, and the arguments with gaps
    between them. Only the last argument that the kind declares may hold blanks. -/
inductive Supplies (kind : Kind) (arguments : List (List Char)) : List Char → Prop where
  | intro {lead marker gap gap' text tail : List Char} (hlead : Blank lead) (hmarker : Token marker)
      (hgap : Gap gap) (hgap' : Gap gap') (htext : Spaced kind.fields.length arguments text)
      (htail : Blank tail) :
      Supplies kind arguments
        (lead ++ marker ++ gap ++ kind.keyword.toList ++ gap' ++ text ++ tail)

/-- A line states an outcome: its second word is the keyword, and unless the kind takes no notice of
    arguments, those on the line are read as the outcome. -/
structure States (line : List Char) (o : Outcome) : Prop where
  keyword : (words line)[1]? = some o.kind.keyword.toList
  arguments : o.kind.fields = [] ∨
    ∃ arguments, Supplies o.kind arguments line ∧ o.kind.Takes arguments.length ∧
      Outcome.read o.kind (arguments.map String.ofList) = .ok o

/-! ## What decoding depends on -/

/-- Decode what stands behind the marker: a word, and the text behind it. -/
def decodeKeyword (word rest : List Char) : Except FieldFault (Option Outcome) :=
  match Kind.ofKeyword? (String.ofList word) with
  | none => .ok none
  | some kind => (Outcome.read kind (argumentsOf kind rest)).map some

theorem decodeKeyword_keyword (kind : Kind) (rest : List Char) :
    decodeKeyword kind.keyword.toList rest =
      (Outcome.read kind (argumentsOf kind rest)).map some := by
  rw [decodeKeyword, String.ofList_toList, Kind.ofKeyword?_keyword]

theorem decodeKeyword_of_unknown {word : List Char} (h : ∀ kind : Kind, word ≠ kind.keyword.toList)
    (rest : List Char) : decodeKeyword word rest = .ok none := by
  rw [decodeKeyword]
  cases hkind : Kind.ofKeyword? (String.ofList word) with
  | none => rfl
  | some kind =>
      refine absurd ?_ (h kind)
      rw [← Kind.ofKeyword?_eq_some_iff.1 hkind, String.toList_ofList]

theorem Kind.token_keyword (kind : Kind) : Token kind.keyword.toList := by
  cases kind <;> decide

variable {line lead marker gap word behind : List Char}

/-- A line has a second word, or it has a marker at the most. -/
theorem few_or_keyword (line : List Char) :
    (words line).length < 2 ∨ ∃ lead marker gap word behind,
      line = lead ++ (marker ++ (gap ++ (word ++ behind))) ∧ Blank lead ∧ Token marker ∧ Gap gap ∧
      Token word ∧ Boundary behind := by
  rcases blank_or_token line with hblank | ⟨lead, marker, behind, rfl, hlead, hmarker, hbehind⟩
  · rw [words_of_blank hblank]
    exact Or.inl Nat.zero_lt_two
  · rcases blank_or_token behind with hblank | ⟨gap, word, behind, rfl, hgap, hword, hbehind'⟩
    · rw [words_append_token hlead hmarker hbehind, words_of_blank hblank]
      exact Or.inl Nat.one_lt_two
    · have hgap' := hbehind.gap_of_opens hgap (hword.phrase.opens.append behind)
      exact Or.inr ⟨lead, marker, gap, word, behind, rfl, hlead, hmarker, hgap', hword, hbehind'⟩

theorem words_keyword (hlead : Blank lead) (hmarker : Token marker) (hgap : Gap gap)
    (hword : Token word) (hbehind : Boundary behind) :
    words (lead ++ (marker ++ (gap ++ (word ++ behind)))) = marker :: word :: words behind := by
  rw [words_append_token hlead hmarker (hgap.boundary _), words_append_token hgap.2 hword hbehind]

theorem decodeLine_of_few (h : (words line).length < 2) : decodeLine line = .ok none := by
  rcases blank_or_token line with hblank | ⟨lead, marker, behind, rfl, hlead, hmarker, hbehind⟩
  · rw [decodeLine, trimEnd_of_blank hblank]
    rfl
  · rcases blank_or_token behind with hblank | ⟨gap, word, rest, rfl, hgap, hword, hrest⟩
    · have hpieces := pieces_append_token hmarker boundary_nil 1
      rw [List.append_nil, pieces_of_blank blank_nil] at hpieces
      rw [decodeLine, ← List.append_assoc, trimEnd_append_of_blank hblank,
        trimEnd_of_closes (hmarker.phrase.closes.append lead), pieces_append_of_blank hlead,
        hpieces]
    · rw [words_append_token hlead hmarker hbehind, words_append_token hgap hword hrest] at h
      simp only [List.length_cons] at h
      omega

/-- What is decoded of a line is what is decoded of its second word and the text behind it. -/
theorem decodeLine_eq_decodeKeyword (hlead : Blank lead) (hmarker : Token marker) (hgap : Gap gap)
    (hword : Token word) (hbehind : Boundary behind) :
    decodeLine (lead ++ (marker ++ (gap ++ (word ++ behind)))) =
      decodeKeyword word (trim behind) := by
  have hcloses : Closes (lead ++ (marker ++ (gap ++ word))) :=
    ((hword.phrase.closes.append gap).append marker).append lead
  have hpieces : ∀ rest, Boundary rest →
      pieces 3 (lead ++ (marker ++ (gap ++ (word ++ rest)))) = marker :: word :: pieces 1 rest :=
    fun rest hrest => by
      rw [pieces_append_of_blank hlead, pieces_append_token hmarker (hgap.boundary _),
        pieces_append_of_blank hgap.2, pieces_append_token hword hrest]
  rcases hbehind.blank_or_phrase with hblank | ⟨gap', text, tail, rfl, hgap', htext, htail⟩
  · have htrim : trimEnd (lead ++ (marker ++ (gap ++ (word ++ behind)))) =
        lead ++ (marker ++ (gap ++ (word ++ []))) := by
      have htrim := trimEnd_append_of_closes hcloses behind
      rw [trimEnd_of_blank hblank] at htrim
      simpa only [List.append_assoc] using htrim
    rw [decodeLine, htrim, hpieces [] boundary_nil, trim_of_blank hblank]
    rfl
  · have htrim : trimEnd (lead ++ (marker ++ (gap ++ (word ++ (gap' ++ text ++ tail))))) =
        lead ++ (marker ++ (gap ++ (word ++ (gap' ++ text)))) := by
      have htrim := trimEnd_append_of_closes hcloses (gap' ++ text ++ tail)
      rw [trimEnd_append_of_blank htail, trimEnd_of_closes (htext.closes.append gap')] at htrim
      simpa only [List.append_assoc] using htrim
    rw [decodeLine, htrim, hpieces _ (hgap'.boundary text), pieces_append_of_blank hgap'.2,
      pieces_one htext.opens, trim_of_phrase hgap'.2 htext htail]
    rfl

/-- Another first word makes no difference. -/
theorem decodeLine_congr_marker {marker' : List Char} (hlead : Blank lead) (hmarker : Token marker)
    (hmarker' : Token marker') (hbehind : Boundary behind) :
    decodeLine (lead ++ marker ++ behind) = decodeLine (lead ++ marker' ++ behind) := by
  rw [List.append_assoc, List.append_assoc]
  rcases blank_or_token behind with hblank | ⟨gap, word, rest, rfl, hgap, hword, hrest⟩
  · rw [decodeLine_of_few, decodeLine_of_few] <;>
      rw [words_append_token hlead ‹_› hbehind, words_of_blank hblank] <;>
      exact Nat.one_lt_two
  · have hgap' := hbehind.gap_of_opens hgap (hword.phrase.opens.append rest)
    rw [decodeLine_eq_decodeKeyword hlead hmarker hgap' hword hrest,
      decodeLine_eq_decodeKeyword hlead hmarker' hgap' hword hrest]

/-- A line with a keyword is answered by what its arguments are read as, and the words behind the
    keyword are those of a text that the arguments are cut from. -/
theorem exists_rest_of_keyword {kind : Kind}
    (h : (words line)[1]? = some kind.keyword.toList) :
    ∃ rest, words rest = (words line).drop 2 ∧
      decodeLine line = (Outcome.read kind (argumentsOf kind rest)).map some := by
  rcases few_or_keyword line with hfew | ⟨lead, marker, gap, word, behind, rfl, hlead, hmarker,
    hgap, hword, hbehind⟩
  · rw [List.getElem?_eq_none (Nat.le_of_lt_succ hfew)] at h
    cases h
  · rw [words_keyword hlead hmarker hgap hword hbehind] at h ⊢
    have hkeyword : word = kind.keyword.toList := by simpa using h
    subst hkeyword
    refine ⟨trim behind, words_trim behind, ?_⟩
    rw [decodeLine_eq_decodeKeyword hlead hmarker hgap hword hbehind, decodeKeyword_keyword]

/-! ## The two directions -/

theorem decodeLine_of_supplies {kind : Kind} {arguments : List (List Char)}
    (h : Supplies kind arguments line) :
    decodeLine line = (Outcome.read kind (arguments.map String.ofList)).map some := by
  cases h with
  | @intro lead marker gap gap' text tail hlead hmarker hgap hgap' htext htail =>
      have hbehind : Boundary (gap' ++ text ++ tail) := by
        rw [List.append_assoc]
        exact hgap'.boundary _
      have hdecode := decodeLine_eq_decodeKeyword hlead hmarker hgap kind.token_keyword hbehind
      rw [trim_of_phrase hgap'.2 htext.phrase htail, decodeKeyword_keyword, argumentsOf,
        pieces_of_spaced htext] at hdecode
      simpa only [List.append_assoc] using hdecode

theorem decodeLine_of_states {o : Outcome} (h : States line o) :
    decodeLine line = .ok (some o) := by
  rcases h.arguments with hnone | ⟨arguments, hsupplies, -, hread⟩
  · obtain ⟨rest, -, hdecode⟩ := exists_rest_of_keyword h.keyword
    rw [hdecode, argumentsOf, hnone]
    exact congrArg (Except.map some) (Outcome.read_of_no_fields hnone)
  · rw [decodeLine_of_supplies hsupplies, hread]
    rfl

theorem states_of_decodeLine {o : Outcome} (h : decodeLine line = .ok (some o)) :
    States line o := by
  rcases few_or_keyword line with hfew | ⟨lead, marker, gap, word, behind, rfl, hlead, hmarker,
    hgap, hword, hbehind⟩
  · rw [decodeLine_of_few hfew] at h
    cases h
  · rw [decodeLine_eq_decodeKeyword hlead hmarker hgap hword hbehind, decodeKeyword] at h
    split at h
    · cases h
    · next kind hkind =>
        obtain ⟨o', hread, ho⟩ := map_eq_ok_iff.1 h
        cases ho
        obtain ⟨rfl, -⟩ := Outcome.read_eq_ok_iff.1 hread
        have hkeyword : word = o.kind.keyword.toList := by
          rw [← Kind.ofKeyword?_eq_some_iff.1 hkind, String.toList_ofList]
        subst hkeyword
        refine ⟨by rw [words_keyword hlead hmarker hgap hword hbehind]; rfl, ?_⟩
        have htakes := Outcome.takes_of_read hread
        rw [argumentsOf, List.length_map] at htakes
        rcases hbehind.blank_or_phrase with hblank | ⟨gap', text, tail, rfl, hgap', htext, htail⟩
        · -- nothing stands behind the keyword, so nothing is declared
          rw [trim_of_blank hblank, pieces_of_blank blank_nil] at htakes
          exact Or.inl htakes.fields_eq_nil
        · rw [trim_of_phrase hgap'.2 htext htail] at htakes hread
          rcases Nat.eq_zero_or_pos o.kind.fields.length with hzero | hpos
          · exact Or.inl (List.length_eq_zero_iff.1 hzero)
          · refine Or.inr ⟨_, ?_, htakes, hread⟩
            have hsupplies := Supplies.intro hlead hmarker hgap hgap' (spaced_pieces htext hpos)
              htail
            simpa only [List.append_assoc] using hsupplies

theorem decodeLine_eq_none_iff : decodeLine line = .ok none ↔ Skipped line := by
  rcases few_or_keyword line with hfew | ⟨lead, marker, gap, word, behind, rfl, hlead, hmarker,
    hgap, hword, hbehind⟩
  · exact ⟨fun _ => Or.inl hfew, fun _ => decodeLine_of_few hfew⟩
  · rw [decodeLine_eq_decodeKeyword hlead hmarker hgap hword hbehind, Skipped,
      words_keyword hlead hmarker hgap hword hbehind]
    constructor
    · intro h
      refine Or.inr ⟨word, rfl, ?_⟩
      rintro kind rfl
      rw [decodeKeyword_keyword] at h
      obtain ⟨o, -, ho⟩ := map_eq_ok_iff.1 h
      cases ho
    · rintro (hfew | ⟨other, hother, hunknown⟩)
      · simp only [List.length_cons] at hfew
        omega
      · cases hother
        exact decodeKeyword_of_unknown hunknown _

/-- **The grammar of status lines.** A line is skipped exactly when it has no second word or one
    that is no keyword. It gives an outcome exactly when it states the outcome. Every other line is
    refused. And whatever word stands in front of the keyword, the line says the same. -/
theorem decodeLine_grammar (line : List Char) :
    (decodeLine line = .ok none ↔ Skipped line) ∧
    (∀ o, decodeLine line = .ok (some o) ↔ States line o) ∧
    ((∃ fault, decodeLine line = .error fault) ↔ ¬Skipped line ∧ ∀ o, ¬States line o) ∧
    ∀ lead marker marker' behind, line = lead ++ marker ++ behind → Blank lead → Token marker →
      Token marker' → Boundary behind →
      decodeLine (lead ++ marker' ++ behind) = decodeLine line := by
  have hstates : ∀ o, decodeLine line = .ok (some o) ↔ States line o :=
    fun o => ⟨states_of_decodeLine, decodeLine_of_states⟩
  refine ⟨decodeLine_eq_none_iff, hstates, ?_, ?_⟩
  · rw [← decodeLine_eq_none_iff]
    simp only [← hstates]
    cases hdecode : decodeLine line with
    | error fault => exact ⟨fun _ => ⟨nofun, nofun⟩, fun _ => ⟨fault, rfl⟩⟩
    | ok found =>
        refine ⟨nofun, ?_⟩
        rintro ⟨hnone, hsome⟩
        cases found with
        | none => exact absurd rfl hnone
        | some o => exact absurd rfl (hsome o)
  · rintro lead marker marker' behind rfl hlead hmarker hmarker' hbehind
    exact decodeLine_congr_marker hlead hmarker' hmarker hbehind

/-- A user name may have blanks inside, and what stands for the marker does not matter. -/
theorem decodeLine_grammar_badSig :
    ∃ o, States "[GNUPG:] BADSIG 01 A  B ".toList o ∧ o.values = [.text "01", .text "A  B"] ∧
      decodeLine "? BADSIG 01 A  B ".toList = .ok (some o) := by
  obtain ⟨-, hstates, -, hmarker⟩ := decodeLine_grammar "[GNUPG:] BADSIG 01 A  B ".toList
  have hdecode : decodeLine "[GNUPG:] BADSIG 01 A  B ".toList = .ok (some
      ⟨.badSig, [.text "01", .text "A  B"], rfl, rfl, trivial⟩) := rfl
  refine ⟨_, (hstates _).1 hdecode, rfl, ?_⟩
  rw [← hdecode]
  refine hmarker [] "[GNUPG:]".toList ['?'] " BADSIG 01 A  B ".toList rfl blank_nil (by decide)
    (by decide) ?_
  rintro c ⟨⟩
  decide

end SigVerdict.Status
