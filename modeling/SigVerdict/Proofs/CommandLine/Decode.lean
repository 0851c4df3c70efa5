import Mathlib.Data.List.Forall2
import SigVerdict.CommandLine.Program
import SigVerdict.Proofs.Format.Json.Parser
import SigVerdict.Proofs.Status.Grammar
import SigVerdict.Proofs.Status.Stream

set_option autoImplicit false

/-! # Decoding a stream, all or nothing

The command that decodes a status stream shows the outcomes of all lines that have any, or nothing
but the first malformed line (`run_decode`). All lines are read before anything is written, so good
lines in front of a malformed one are not shown either. -/

namespace SigVerdict

/-! ## Lines of a stream -/

namespace Status

open Text

/-- A line has the keyword of some kind as its second word. -/
def Registered (line : List Char) : Prop :=
  ∃ kind : Kind, (words line)[1]? = some kind.keyword.toList

/-- A line with a keyword that states no outcome. -/
def Malformed (line : List Char) : Prop := Registered line ∧ ∀ o, ¬States line o

instance : DecidablePred Registered := fun line =>
  decidable_of_iff (∃ kind ∈ Kind.all, (words line)[1]? = some kind.keyword.toList)
    ⟨fun ⟨kind, _, h⟩ => ⟨kind, h⟩, fun ⟨kind, h⟩ => ⟨kind, kind.mem_all, h⟩⟩

variable {line : List Char}

theorem skipped_iff_not_registered : Skipped line ↔ ¬Registered line := by
  constructor
  · rintro (hfew | ⟨word, hword, hunknown⟩) ⟨kind, hkeyword⟩
    · rw [List.getElem?_eq_none (Nat.le_of_lt_succ hfew)] at hkeyword
      cases hkeyword
    · rw [hkeyword, Option.some.injEq] at hword
      exact hunknown kind hword.symm
  · intro h
    cases hword : (words line)[1]? with
    | none => exact Or.inl (Nat.lt_succ_of_le (List.getElem?_eq_none_iff.1 hword))
    | some word =>
        refine Or.inr ⟨word, hword, ?_⟩
        rintro kind rfl
        exact h ⟨kind, hword⟩

theorem malformed_iff_not_decodable : Malformed line ↔ ¬DecodableLine line := by
  constructor
  · rintro ⟨hregistered, hnone⟩ ⟨found, hfound⟩
    cases found with
    | none => exact skipped_iff_not_registered.1 (decodeLine_eq_none_iff.1 hfound) hregistered
    | some o => exact hnone o (states_of_decodeLine hfound)
  · intro h
    refine ⟨?_, fun o ho => h ⟨some o, decodeLine_of_states ho⟩⟩
    by_contra hregistered
    exact h ⟨none, decodeLine_eq_none_iff.2 (skipped_iff_not_registered.2 hregistered)⟩

/-- Lines without a malformed one give an outcome for each registered line, and none besides. -/
theorem forall₂_states {lines : List (List Char)} (h : ∀ line ∈ lines, ¬Malformed line) :
    List.Forall₂ States (lines.filter (Registered ·)) (lines.filterMap outcomeOfLine?) := by
  induction lines with
  | nil => exact .nil
  | cons line lines ih =>
      obtain ⟨hline, hlines⟩ := List.forall_mem_cons.1 h
      obtain ⟨found, hfound⟩ := not_not.1 (mt malformed_iff_not_decodable.2 hline)
      cases found with
      | none =>
          have hskipped := skipped_iff_not_registered.1 (decodeLine_eq_none_iff.1 hfound)
          rw [List.filter_cons_of_neg (by simpa using hskipped),
            List.filterMap_cons_none (by rw [outcomeOfLine?, hfound])]
          exact ih hlines
      | some o =>
          have hstates := states_of_decodeLine hfound
          have hregistered : Registered line := ⟨o.kind, hstates.keyword⟩
          rw [List.filter_cons_of_pos (by simpa using hregistered),
            List.filterMap_cons_some (by rw [outcomeOfLine?, hfound])]
          exact .cons hstates (ih hlines)

end Status

namespace CommandLine

open Status Transcript

/-! ## The input -/

/-- The octets of the stream that is asked for: those of a file, or of the standard input if no file
    is named or its name is a dash. -/
inductive Input (w : World) : Option String → List UInt8 → Prop where
  | unnamed : Input w none w.input
  | dash : Input w (some "-") w.input
  | file {name : String} {octets : List UInt8} (hname : name ≠ "-")
      (hcontent : w.look (.ofText name) = .content octets) : Input w (some name) octets

variable {w : World} {file : Option String} {octets : List UInt8}

theorem statusOctets_of_input (h : Input w file octets) : statusOctets w file = .ok octets := by
  cases h with
  | unnamed => rfl
  | dash => rfl
  | @file name _ hname hcontent =>
      have hfile : statusFile? (some name) = some (.ofText name) := by simp [statusFile?, hname]
      simp only [statusOctets, hfile, hcontent]
      rfl

/-! ## The output -/

/-- What the program says of itself to people who want to know more. -/
def greeting (shared : Shared) : String :=
  if 2 ≤ shared.verbosity then s!"{programName} v{programVersion}\n" else ""

theorem all_exit (parts : List Transcript) : (all parts).exit = 0 := by
  induction parts with
  | nil => rfl
  | cons part parts ih => exact ih

/-- Showing outcomes is no failure, in whatever format. -/
theorem showOutcomes_exit (c : Console) (outcomes : List Outcome) :
    (showOutcomes c outcomes).exit = 0 := by
  unfold showOutcomes
  split
  · unfold Console.document
    split <;> rfl
  · split
    · unfold Console.info
      split <;> rfl
    · exact all_exit _

/-- Outcomes that are shown in JSON are the elements of an array. -/
theorem showOutcomes_json {c : Console} (hformat : c.format = .json) (outcomes : List Outcome) :
    Json.parse? (showOutcomes c outcomes).results.toList =
      some (.array (outcomes.map fun o => Json.ofDocument o.document)) := by
  have hmachine : c.isMachine = true := by rw [Console.isMachine, hformat]; rfl
  have hresults : (showOutcomes c outcomes).results =
      String.ofList (Json.ofDocument (documentOf outcomes)).render ++ "\n" := by
    rw [showOutcomes, if_pos hmachine, Console.document, hformat]
    rfl
  have hspaces : Json.Spaces "\n".toList := List.forall_mem_singleton.2 (by decide)
  have hparse := Json.parse?_render_document (documentOf outcomes) hspaces
  rw [hresults, String.toList_append, String.toList_ofList]
  refine hparse.trans ?_
  rw [documentOf, Json.ofDocument, Json.ofItems_eq_map, List.map_map]
  rfl

/-! ## The command -/

variable {arguments : List String} {shared : Shared} {settings : Settings}

/-- The program greets and then decodes the stream. -/
theorem run_of_input (hread : readArguments w.environment arguments = .ok ⟨shared, .decode file⟩)
    (hload : Settings.load w shared.config = .ok settings) (hinput : Input w file octets) :
    run w arguments =
      let shown := decodeOctets (.ofShared w shared) octets
      ⟨shown.results, greeting shared ++ shown.messages, shown.exit⟩ := by
  rw [run, hread]
  simp only [runArguments, hload, runCommand, runDecode, statusOctets_of_input hinput]
  unfold greeting
  split
  · simp [followedBy, note, toString]
  · simp [followedBy]

/-- Of lines with a malformed one, the first such line is what the program says, and it shows
    nothing. -/
theorem decodeOctets_of_malformed (c : Console)
    (h : ∃ line ∈ Text.lines (Text.Utf8.decodeLossy octets), Malformed line) :
    ∃ before line after cause,
      Text.lines (Text.Utf8.decodeLossy octets) = before ++ line :: after ∧
      (∀ l ∈ before, ¬Malformed l) ∧ Malformed line ∧ decodeLine line = .error cause ∧
      decodeOctets c octets =
        { results := "", exit := 1,
          messages := c.paint .red "ERROR:" ++ " " ++
            ("Malformed GnuPG status line " ++ Text.decimal (before.length + 1) ++ " ('" ++
              String.ofList line ++ "'): " ++ cause.message) ++ "\n" } := by
  have hbad : ¬∀ line ∈ Text.lines (Text.Utf8.decodeLossy octets), DecodableLine line := by
    obtain ⟨line, hmem, hline⟩ := h
    exact fun hall => malformed_iff_not_decodable.1 hline (hall line hmem)
  obtain ⟨fault, hfault⟩ := exists_firstMalformedFrom hbad 1
  have hcollect := collect_items_eq_error_iff.2 hfault
  obtain ⟨before, line, after, hlines, hbefore, hcause, htext, hnumber⟩ := hfault
  refine ⟨before, line, after, fault.cause, hlines,
    fun l hl hmalformed => malformed_iff_not_decodable.1 hmalformed (hbefore l hl),
    malformed_iff_not_decodable.2 (not_decodable_iff.2 ⟨_, hcause⟩), hcause, ?_⟩
  have hmessage : fault.message =
      "Malformed GnuPG status line " ++ Text.decimal fault.number ++ " ('" ++ fault.line ++
        "'): " ++ fault.cause.message := rfl
  rw [decodeOctets, hcollect, ← htext, Nat.add_comm, ← hnumber, ← hmessage]
  simp only [Console.error, followedBy, note, ending, String.append_empty]

/-- Without a malformed line, the outcomes of all lines are shown. -/
theorem decodeOctets_of_wellFormed (c : Console)
    (h : ∀ line ∈ Text.lines (Text.Utf8.decodeLossy octets), ¬Malformed line) :
    decodeOctets c octets = showOutcomes c (outcomes (Text.Utf8.decodeLossy octets)) := by
  have hwell : WellFormed (Text.Utf8.decodeLossy octets) := fun line hline =>
    not_not.1 (mt malformed_iff_not_decodable.2 (h line hline))
  rw [decodeOctets, collect_items_eq_ok_iff.2 ⟨hwell, rfl⟩]

/-- A world with nothing but a stream on the standard input. -/
def worldOfStream (octets : List UInt8) : World where
  environment _ := none
  look _ := .absent .noSuchFile
  input := octets
  launcher := ⟨3, fun _ => .ended 0 [] (some 0)⟩

end CommandLine

end SigVerdict
