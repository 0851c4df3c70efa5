import Mathlib.Data.List.Forall2
import SigVerdict.Proofs.Status.Grammar
import SigVerdict.Proofs.Text.Numeral

set_option autoImplicit false

/-! # The wire form of outcomes

An outcome is written as its keyword and its values, with single spaces between them. On a line,
this is read as the same outcome just when none of its texts is mistaken for something else: a text
holds blanks only where the last declared field stands, and even there it does not start or end with
one (`WireSafe`).

The values that are written can always be read back one by one (`Outcome.read_written`), so all that
can go wrong is how the line is cut. The parts of a safe outcome are the pieces of its line
(`spaced_written`); and what a line states is safe, whatever the line is (`States.wireSafe`). -/

namespace SigVerdict.Status

open Text

/-! ## Safe values -/

/-- Values that can stand on a line: their texts are without blanks, but for the last value, which
    may have blanks inside when it is a text. -/
structure SafeValues (vs : List Value) : Prop where
  inside : ∀ s, .text s ∈ vs.dropLast → Token s.toList
  last : ∀ s, vs.getLast? = some (.text s) → Phrase s.toList

/-- An outcome that can stand on a line: the texts of its fields are without blanks, but for the one
    declared last, which may have blanks inside. -/
def Outcome.WireSafe (o : Outcome) : Prop := SafeValues o.values

/-- The values that are written. -/
def written (vs : List Value) : List String := vs.filterMap Value.written?

theorem safeValues_nil : SafeValues [] := ⟨nofun, nofun⟩

theorem safeValues_singleton {v : Value} :
    SafeValues [v] ↔ ∀ s, v = .text s → Phrase s.toList := by
  constructor
  · rintro h s rfl
    exact h.last s rfl
  · intro h
    refine ⟨nofun, fun s hs => h s ?_⟩
    simpa using hs

theorem safeValues_cons {v : Value} {vs : List Value} (hne : vs ≠ []) :
    SafeValues (v :: vs) ↔ (∀ s, v = .text s → Token s.toList) ∧ SafeValues vs := by
  constructor
  · rintro ⟨hinside, hlast⟩
    rw [List.dropLast_cons_of_ne_nil hne] at hinside
    rw [List.getLast?_cons_of_ne_nil hne] at hlast
    refine ⟨?_, fun s hs => hinside s (List.mem_cons_of_mem _ hs), hlast⟩
    rintro s rfl
    exact hinside s List.mem_cons_self
  · rintro ⟨hv, hinside, hlast⟩
    refine ⟨fun s hs => ?_, fun s hs => ?_⟩
    · rw [List.dropLast_cons_of_ne_nil hne] at hs
      rcases List.mem_cons.1 hs with h | h
      · exact hv s h.symm
      · exact hinside s h
    · rw [List.getLast?_cons_of_ne_nil hne] at hs
      exact hlast s hs

/-! ## What is written can be read -/

/-- Fields of which only the last one may be optional. -/
def MandatoryInside (fs : List Field) : Prop := ∀ f ∈ fs.dropLast, f.optional = false

theorem Kind.mandatoryInside (kind : Kind) : MandatoryInside kind.fields := by
  cases kind <;> unfold MandatoryInside <;> decide

theorem MandatoryInside.tail {f : Field} {fs : List Field} (h : MandatoryInside (f :: fs)) :
    MandatoryInside fs := by
  cases fs with
  | nil => exact nofun
  | cons g gs => exact fun e he => h e (List.mem_cons_of_mem f he)

theorem MandatoryInside.head {f : Field} {fs : List Field} (h : MandatoryInside (f :: fs))
    (hne : fs ≠ []) : f.optional = false := by
  rw [MandatoryInside, List.dropLast_cons_of_ne_nil hne] at h
  exact h f List.mem_cons_self

theorem Fit.forall₂ {fs : List Field} {vs : List Value} (h : Fit fs vs) :
    List.Forall₂ Field.Accepts fs vs := by
  induction fs generalizing vs with
  | nil =>
      cases vs with
      | nil => exact .nil
      | cons v vs => exact h.elim
  | cons f fs ih =>
      cases vs with
      | nil => exact h.elim
      | cons v vs => exact .cons h.1 (ih h.2)

theorem written_cons_of_some {v : Value} {s : String} (h : v.written? = some s) (vs : List Value) :
    written (v :: vs) = s :: written vs :=
  List.filterMap_cons_some h

theorem written_cons_of_none {v : Value} (h : v.written? = none) (vs : List Value) :
    written (v :: vs) = written vs :=
  List.filterMap_cons_none h

/-- Only the value of an optional field is not written. -/
theorem optional_of_not_written {f : Field} {v : Value} (hfit : f.Accepts v)
    (h : v.written? = none) : v = .absent ∧ f.optional = true := by
  cases v with
  | text s => cases h
  | number n => cases h
  | absent => exact ⟨rfl, hfit⟩

/-- A written value is read as itself. -/
theorem Field.read_written {f : Field} {v : Value} {s : String} (hfit : f.Accepts v)
    (h : v.written? = some s) : f.read s = .ok v := by
  cases v with
  | text t =>
      cases h
      simp only [Field.Accepts] at hfit
      rw [Field.read, hfit]
  | number n =>
      cases h
      obtain ⟨range, htype, hn⟩ := hfit
      rw [Field.read, htype]
      dsimp only
      rw [integerText, String.toList_ofList, trim_of_token (token_integerDigits n),
        readInteger_integerDigits hn]
      rfl
  | absent => cases h

theorem readValues_written (kind : Kind) {fs : List Field} {vs : List Value}
    (hfit : List.Forall₂ Field.Accepts fs vs) (hmandatory : MandatoryInside fs) :
    readValues kind fs (written vs) = .ok vs := by
  induction hfit with
  | nil => rfl
  | @cons f v fs vs hv hvs ih =>
      have hrest := ih hmandatory.tail
      cases hwritten : v.written? with
      | some s =>
          rw [written_cons_of_some hwritten, readValues, Field.read_written hv hwritten]
          exact congrArg (Except.map (v :: ·)) hrest
      | none =>
          -- only the last field may be without a value, and then nothing is left to be read
          obtain ⟨rfl, hoptional⟩ := optional_of_not_written hv hwritten
          have hnil : fs = [] := by
            by_contra hne
            cases (hmandatory.head hne).symm.trans hoptional
          subst hnil
          cases hvs
          rw [written_cons_of_none hwritten, written, List.filterMap_nil, readValues,
            if_pos hoptional]
          rfl

/-- The values of an outcome are read back from how they are written. -/
theorem Outcome.read_written (o : Outcome) : Outcome.read o.kind (written o.values) = .ok o :=
  read_eq_ok_iff.2 ⟨rfl, readValues_written o.kind o.fit.forall₂ o.kind.mandatoryInside⟩

/-! ## The line of an outcome -/

/-- How written values stand on a line: with a space in front of each. -/
def spread (texts : List String) : List Char := texts.flatMap fun s => ' ' :: s.toList

theorem arguments_eq_written {fs : List Field} {vs : List Value}
    (hfit : List.Forall₂ Field.Accepts fs vs) :
    ((fs.zip vs).filterMap fun (f, v) => v.written?.map (f.name, ·)).map Prod.snd = written vs := by
  induction hfit with
  | nil => rfl
  | @cons f v fs vs hv hvs ih =>
      rw [List.zip_cons_cons, List.filterMap_cons]
      dsimp only
      cases hwritten : v.written? with
      | none => rwa [written_cons_of_none hwritten]
      | some s =>
          rw [written_cons_of_some hwritten]
          exact congrArg (s :: ·) ih

theorem toList_foldl_spread (texts : List (String × String)) (start : String) :
    (texts.foldl (fun text argument => text ++ " " ++ argument.2) start).toList =
      start.toList ++ spread (texts.map Prod.snd) := by
  induction texts generalizing start with
  | nil => exact (List.append_nil _).symm
  | cons argument texts ih =>
      rw [List.foldl_cons, ih, String.toList_append, String.toList_append, List.append_assoc,
        List.append_assoc]
      rfl

theorem Outcome.toList_render (o : Outcome) :
    o.render.toList = o.kind.keyword.toList ++ spread (written o.values) := by
  rw [render, toList_foldl_spread, arguments, arguments_eq_written o.fit.forall₂]

/-- Numerals are tokens, so that a written value is one if it is not another text. -/
theorem token_of_written {v : Value} {s : String} (hsafe : ∀ t, v = .text t → Token t.toList)
    (h : v.written? = some s) : Token s.toList := by
  cases v with
  | text t =>
      cases h
      exact hsafe s rfl
  | number n =>
      cases h
      rw [integerText, String.toList_ofList]
      exact token_integerDigits n
  | absent => cases h

theorem phrase_of_written {v : Value} {s : String} (hsafe : ∀ t, v = .text t → Phrase t.toList)
    (h : v.written? = some s) : Phrase s.toList := by
  cases v with
  | text t =>
      cases h
      exact hsafe s rfl
  | number n =>
      have hsafe' : ∀ t, Value.number n = .text t → Token t.toList := by
        rintro t ⟨⟩
      exact (token_of_written hsafe' h).phrase
  | absent => cases h

/-- When values are safe, those that are written are the parts of a text, unless there are none. -/
theorem spaced_written {fs : List Field} {vs : List Value}
    (hfit : List.Forall₂ Field.Accepts fs vs) (hmandatory : MandatoryInside fs)
    (hsafe : SafeValues vs) :
    written vs = [] ∨ ∃ text, spread (written vs) = ' ' :: text ∧
      Spaced fs.length ((written vs).map String.toList) text := by
  induction hfit with
  | nil => exact Or.inl rfl
  | @cons f v fs vs hv hvs ih =>
      cases hvs with
      | nil =>
          cases hwritten : v.written? with
          | none => exact Or.inl (written_cons_of_none hwritten [])
          | some s =>
              rw [written_cons_of_some hwritten]
              have hphrase := phrase_of_written (safeValues_singleton.1 hsafe) hwritten
              exact Or.inr ⟨s.toList, List.append_nil _, .rest hphrase⟩
      | @cons g w gs ws hw hws =>
          obtain ⟨hvsafe, hwsafe⟩ := (safeValues_cons (List.cons_ne_nil w ws)).1 hsafe
          cases hwritten : v.written? with
          | none =>
              obtain ⟨-, hoptional⟩ := optional_of_not_written hv hwritten
              cases (hmandatory.head (List.cons_ne_nil g gs)).symm.trans hoptional
          | some s =>
              have htoken := token_of_written hvsafe hwritten
              rw [written_cons_of_some hwritten]
              right
              rcases ih hmandatory.tail hwsafe with hnil | ⟨text, hspread, hspaced⟩
              · rw [hnil]
                exact ⟨s.toList, List.append_nil _, .last htoken⟩
              · refine ⟨s.toList ++ [' '] ++ text, ?_, .cons htoken gap_space hspaced⟩
                rw [spread, List.flatMap_cons, ← spread, hspread, List.append_assoc]
                rfl

theorem boundary_spread (texts : List String) : Boundary (spread texts) := by
  cases texts with
  | nil => exact boundary_nil
  | cons s texts =>
      rintro c ⟨⟩
      decide

/-- A safe outcome is stated by the line on which it is written. -/
theorem states_render {marker : List Char} (hmarker : Token marker) {o : Outcome}
    (h : o.WireSafe) : States (marker ++ ' ' :: o.render.toList) o := by
  have hline : marker ++ ' ' :: o.render.toList =
      [] ++ (marker ++ ([' '] ++ (o.kind.keyword.toList ++ spread (written o.values)))) := by
    rw [Outcome.toList_render]
    rfl
  refine ⟨?_, ?_⟩
  · rw [hline, words_keyword blank_nil hmarker gap_space o.kind.token_keyword (boundary_spread _)]
    rfl
  · have hread := o.read_written
    have htakes := Outcome.takes_of_read hread
    rcases spaced_written o.fit.forall₂ o.kind.mandatoryInside h with
      hnil | ⟨text, hspread, hspaced⟩
    · rw [hnil] at htakes
      exact Or.inl htakes.fields_eq_nil
    · refine Or.inr ⟨(written o.values).map String.toList, ?_, ?_, ?_⟩
      · have hline' : marker ++ ' ' :: o.render.toList =
            [] ++ marker ++ [' '] ++ o.kind.keyword.toList ++ [' '] ++ text ++ [] := by
          rw [hline, hspread]
          simp
        rw [hline']
        exact .intro blank_nil hmarker gap_space gap_space hspaced blank_nil
      · rwa [List.length_map]
      · have hback : String.ofList ∘ String.toList = id := funext fun _ => String.ofList_toList
        rwa [List.map_map, hback, List.map_id]

/-! ## What a line states is safe -/

theorem Field.toList_of_read {f : Field} {argument : List Char} {s : String}
    (h : f.read (String.ofList argument) = .ok (.text s)) : s.toList = argument := by
  rw [Field.read] at h
  split at h
  · cases h
    exact String.toList_ofList
  · obtain ⟨n, -, hn⟩ := map_eq_ok_iff.1 h
    cases hn

/-- Without arguments only absent values are read, which are safe. -/
theorem safeValues_of_readValues_nil {kind : Kind} {fs : List Field} {vs : List Value}
    (h : readValues kind fs [] = .ok vs) : SafeValues vs := by
  have habsent : ∀ v ∈ vs, v = .absent := by
    induction fs generalizing vs with
    | nil =>
        cases h
        exact nofun
    | cons f fs ih =>
        rw [readValues] at h
        split at h
        · obtain ⟨ws, hws, rfl⟩ := map_eq_ok_iff.1 h
          exact List.forall_mem_cons.2 ⟨rfl, ih hws⟩
        · cases h
  refine ⟨fun s hs => ?_, fun s hs => ?_⟩
  · cases habsent _ (List.dropLast_subset _ hs)
  · cases habsent _ (List.mem_of_getLast? hs)

theorem safeValues_of_readValues_cons {kind : Kind} {f g : Field} {gs : List Field}
    {token : List Char} {rest : List (List Char)} {vs : List Value} (htoken : Token token)
    (h : readValues kind (f :: g :: gs) ((token :: rest).map String.ofList) = .ok vs)
    (hrest : ∀ ws, readValues kind (g :: gs) (rest.map String.ofList) = .ok ws → SafeValues ws) :
    SafeValues vs := by
  rw [List.map_cons, readValues] at h
  split at h
  · cases h
  · next v hv =>
      obtain ⟨ws, hws, rfl⟩ := map_eq_ok_iff.1 h
      have hne : ws ≠ [] := by
        rintro rfl
        exact fit_of_readValues hws
      refine (safeValues_cons hne).2 ⟨?_, hrest ws hws⟩
      rintro s rfl
      rwa [Field.toList_of_read hv]

/-- Values that are read from the parts of a text are safe. -/
theorem safeValues_of_readValues {kind : Kind} {fs : List Field} {arguments : List (List Char)}
    {text : List Char} {vs : List Value} (hspaced : Spaced fs.length arguments text)
    (h : readValues kind fs (arguments.map String.ofList) = .ok vs) : SafeValues vs := by
  induction fs generalizing arguments text vs with
  | nil => cases hspaced
  | cons f fs ih =>
      cases fs with
      | nil =>
          cases hspaced with
          | rest hrest =>
              rw [List.map_cons, List.map_nil, readValues] at h
              split at h
              · cases h
              · next v hv =>
                  cases h
                  refine safeValues_singleton.2 ?_
                  rintro s rfl
                  rwa [Field.toList_of_read hv]
      | cons g gs =>
          cases hspaced with
          | last htoken =>
              exact safeValues_of_readValues_cons htoken h fun ws hws =>
                safeValues_of_readValues_nil hws
          | cons htoken hgap hparts =>
              exact safeValues_of_readValues_cons htoken h fun ws hws => ih hparts hws

/-- What a line states is safe. -/
theorem States.wireSafe {line : List Char} {o : Outcome} (h : States line o) : o.WireSafe := by
  rcases h.arguments with hnone | ⟨arguments, hsupplies, -, hread⟩
  · rw [Outcome.WireSafe, Outcome.values_eq_nil hnone]
    exact safeValues_nil
  · cases hsupplies with
    | intro _ _ _ _ htext _ =>
        exact safeValues_of_readValues htext (Outcome.read_eq_ok_iff.1 hread).2

/-- **Writing and decoding.** An outcome that is written behind a marker is decoded as itself
    exactly when it is safe. Whatever a line is decoded as is safe, and so it is decoded as the same
    again when it is written. -/
theorem decodeLine_render_iff (marker : List Char) (hmarker : Token marker) :
    (∀ o : Outcome,
      decodeLine (marker ++ ' ' :: o.render.toList) = .ok (some o) ↔ o.WireSafe) ∧
    ∀ line o, decodeLine line = .ok (some o) →
      o.WireSafe ∧ decodeLine (marker ++ ' ' :: o.render.toList) = .ok (some o) := by
  refine ⟨fun o => ⟨fun h => (states_of_decodeLine h).wireSafe, fun h => ?_⟩, fun line o h => ?_⟩
  · exact decodeLine_of_states (states_render hmarker h)
  · have hsafe := (states_of_decodeLine h).wireSafe
    exact ⟨hsafe, decodeLine_of_states (states_render hmarker hsafe)⟩

/-- A user name with blanks inside is read as it was written, but one with a blank in front is
    not. -/
theorem decodeLine_render_iff_badSig :
    decodeLine ("[GNUPG:]".toList ++ ' ' :: (Outcome.render
        ⟨.badSig, [.text "01", .text "A  B"], rfl, rfl, trivial⟩).toList) =
      .ok (some ⟨.badSig, [.text "01", .text "A  B"], rfl, rfl, trivial⟩) ∧
    decodeLine ("[GNUPG:]".toList ++ ' ' :: (Outcome.render
        ⟨.badSig, [.text "01", .text " B"], rfl, rfl, trivial⟩).toList) ≠
      .ok (some ⟨.badSig, [.text "01", .text " B"], rfl, rfl, trivial⟩) := by
  have hiff := (decodeLine_render_iff "[GNUPG:]".toList (by decide)).1
  refine ⟨(hiff _).2 ⟨?_, ?_⟩, mt (hiff _).1 fun hsafe => ?_⟩
  · intro s hs
    cases List.mem_singleton.1 hs
    decide
  · rintro s ⟨⟩
    exact ⟨⟨'A', rfl, by decide⟩, ⟨'B', rfl, by decide⟩⟩
  · obtain ⟨c, hc, hvisible⟩ := (hsafe.last " B" rfl).opens
    cases hc
    exact absurd hvisible (by decide)

end SigVerdict.Status
