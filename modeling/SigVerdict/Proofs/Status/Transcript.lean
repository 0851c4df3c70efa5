import SigVerdict.Proofs.Status.Append
import SigVerdict.Proofs.Status.Stream
import SigVerdict.Proofs.Status.WireForm

set_option autoImplicit false

/-! # Transcripts

A transcript is a stream as one writes it: outcomes on lines of their own, lines that say nothing
in between, and each line ended with or without a carriage return. Reading it gives the outcomes in
their order and nothing else, even if the last line feed is missing (`transcript_roundTrip`).

Two things have to hold of an outcome for this. It must be safe, so that its line is read as this
outcome; and it must fit on one line (`Outcome.OneLine`), so that the line is not cut. Both hold of
every outcome that was read from a stream, since a text that is read stands on the line
(`States.oneLine`); so what a stream says can be written again. -/

namespace SigVerdict.Status

open Text

/-! ## Outcomes on one line -/

/-- An outcome that fits on one line: none of its texts holds a line feed. -/
def Outcome.OneLine (o : Outcome) : Prop := ∀ s, .text s ∈ o.values → '\n' ∉ s.toList

theorem lineFeed_not_mem_written {vs : List Value} (h : ∀ s, .text s ∈ vs → '\n' ∉ s.toList)
    {s : String} (hs : s ∈ written vs) : '\n' ∉ s.toList := by
  obtain ⟨v, hv, hwritten⟩ := List.mem_filterMap.1 hs
  cases v with
  | text t =>
      cases hwritten
      exact h s hv
  | number n =>
      have hsafe : ∀ t, Value.number n = .text t → Token t.toList := by
        rintro t ⟨⟩
      exact lineFeed_not_mem_token (token_of_written hsafe hwritten)
  | absent => cases hwritten

/-- An outcome that fits on one line is written on one. -/
theorem Outcome.OneLine.lineFeed_not_mem_render {o : Outcome} (h : o.OneLine) :
    '\n' ∉ o.render.toList := by
  rw [Outcome.toList_render, List.mem_append, not_or]
  refine ⟨lineFeed_not_mem_token o.kind.token_keyword, fun hmem => ?_⟩
  obtain ⟨s, hs, hmem⟩ := List.mem_flatMap.1 hmem
  rcases List.mem_cons.1 hmem with hspace | hmem
  · cases hspace
  · exact lineFeed_not_mem_written h hs hmem

/-- The characters of the parts of a text are characters of the text. -/
theorem mem_of_mem_spaced {n : Nat} {parts : List (List Char)} {cs part : List Char} {c : Char}
    (h : Spaced n parts cs) (hpart : part ∈ parts) (hc : c ∈ part) : c ∈ cs := by
  induction h with
  | rest hrest =>
      rw [List.mem_singleton.1 hpart] at hc
      exact hc
  | last htoken =>
      rw [List.mem_singleton.1 hpart] at hc
      exact hc
  | cons htoken hgap hparts ih =>
      rcases List.mem_cons.1 hpart with rfl | hpart
      · exact List.mem_append_left _ (List.mem_append_left _ hc)
      · exact List.mem_append_right _ (ih hpart)

/-- A text among values that are read is one of the arguments. -/
theorem mem_arguments_of_readValues {kind : Kind} {fs : List Field} {arguments : List String}
    {vs : List Value} (h : readValues kind fs arguments = .ok vs) {s : String}
    (hs : .text s ∈ vs) : s ∈ arguments := by
  induction fs generalizing arguments vs with
  | nil =>
      cases arguments with
      | nil =>
          cases h
          cases hs
      | cons => cases h
  | cons f fs ih =>
      cases arguments with
      | nil =>
          rw [readValues] at h
          split at h
          · obtain ⟨ws, hws, rfl⟩ := map_eq_ok_iff.1 h
            rcases List.mem_cons.1 hs with habsent | hs
            · cases habsent
            · exact ih hws hs
          · cases h
      | cons argument arguments =>
          rw [readValues] at h
          split at h
          · cases h
          · next v hv =>
              obtain ⟨ws, hws, rfl⟩ := map_eq_ok_iff.1 h
              rcases List.mem_cons.1 hs with rfl | hs
              · rw [← String.ofList_toList (s := argument)] at hv
                have hargument := Field.toList_of_read hv
                rw [String.toList_inj.1 hargument]
                exact List.mem_cons_self
              · exact List.mem_cons_of_mem _ (ih hws hs)

/-- What a line states fits on one line, as the line does. -/
theorem States.oneLine {line : List Char} {o : Outcome} (h : States line o) (hline : '\n' ∉ line) :
    o.OneLine := by
  intro s hs hmem
  rcases h.arguments with hnone | ⟨arguments, hsupplies, -, hread⟩
  · rw [Outcome.values_eq_nil hnone] at hs
    cases hs
  · have harguments := mem_arguments_of_readValues (Outcome.read_eq_ok_iff.1 hread).2 hs
    obtain ⟨argument, hargument, rfl⟩ := List.mem_map.1 harguments
    rw [String.toList_ofList] at hmem
    cases hsupplies with
    | intro hlead hmarker hgap hgap' htext htail =>
        have hmem := mem_of_mem_spaced htext hargument hmem
        exact hline (List.mem_append_left _ (List.mem_append_right _ hmem))

/-! ## Transcripts -/

/-- The word in front of a status that is written. -/
def marker : List Char := "[GNUPG:]".toList

/-- How a line ends that is written: with a line feed, or with a carriage return before it. -/
inductive Ending where
  | lineFeed
  | carriageReturn
  deriving DecidableEq, Repr

/-- What an ending holds in front of its line feed. -/
def Ending.lead : Ending → List Char
  | .lineFeed => []
  | .carriageReturn => ['\r']

/-- What is written on a line: an outcome, or anything else. -/
inductive Entry where
  | outcome (o : Outcome)
  | aside (line : List Char)

namespace Entry

/-- An entry as it is written, without the end of its line. -/
def line : Entry → List Char
  | .outcome o => marker ++ ' ' :: o.render.toList
  | .aside line => line

/-- The outcome that an entry states. -/
def outcome? : Entry → Option Outcome
  | .outcome o => some o
  | .aside _ => none

/-- An entry that stands for itself: an outcome that is safe and fits on one line, or a line that is
    skipped. -/
def Plain : Entry → Prop
  | .outcome o => o.WireSafe ∧ o.OneLine
  | .aside line => decodeLine line = .ok none ∧ '\n' ∉ line

end Entry

/-- Entries one below the other, each with the end of its line. -/
def transcript (entries : List (Entry × Ending)) : List Char :=
  entries.flatMap fun (entry, ending) => entry.line ++ ending.lead ++ ['\n']

/-- The outcomes that entries state. -/
def stated (entries : List (Entry × Ending)) : List Outcome :=
  entries.filterMap fun (entry, _) => entry.outcome?

theorem token_marker : Token marker := by decide

theorem Ending.blank_lead (ending : Ending) : Blank ending.lead := by
  cases ending <;> decide

theorem Ending.lineFeed_not_mem_lead (ending : Ending) : '\n' ∉ ending.lead := by
  cases ending <;> decide

namespace Entry

variable {entry : Entry}

theorem Plain.lineFeed_not_mem (h : entry.Plain) : '\n' ∉ entry.line := by
  cases entry with
  | outcome o =>
      intro hmem
      rcases List.mem_append.1 hmem with hmem | hmem
      · exact lineFeed_not_mem_token token_marker hmem
      · rcases List.mem_cons.1 hmem with hspace | hmem
        · cases hspace
        · exact h.2.lineFeed_not_mem_render hmem
  | aside line => exact h.2

theorem Plain.decodeLine_eq (h : entry.Plain) : decodeLine entry.line = .ok entry.outcome? := by
  cases entry with
  | outcome o => exact decodeLine_of_states (states_render token_marker h.1)
  | aside line => exact h.1

theorem Plain.lineFeed_not_mem_lead (h : entry.Plain) (ending : Ending) :
    '\n' ∉ entry.line ++ ending.lead := by
  rw [List.mem_append, not_or]
  exact ⟨h.lineFeed_not_mem, ending.lineFeed_not_mem_lead⟩

/-- A carriage return behind an entry does not matter, not even if no line feed comes. -/
theorem Plain.decodeLine_lead (h : entry.Plain) (ending : Ending) :
    decodeLine (entry.line ++ ending.lead) = .ok entry.outcome? := by
  rw [← h.decodeLine_eq]
  exact decodeLine_congr (trimEnd_append_of_blank ending.blank_lead _)

end Entry

/-! ## Reading transcripts -/

/-- A text without a line feed gives what it gives as a line. -/
theorem items_of_not_mem {line : List Char} {found : Option Outcome} (hline : '\n' ∉ line)
    (h : decodeLine line = .ok found) : items line = found.toList.map .ok := by
  by_cases hnil : line = []
  · subst hnil
    cases h
    rfl
  · rw [items, numberedLines, lines_of_not_mem hline hnil, numberFrom, itemsOfLines_cons, h]
    cases found <;> rfl

/-- So it does with a line feed behind it. -/
theorem items_append_lineFeed {line : List Char} {found : Option Outcome} (hline : '\n' ∉ line)
    (h : decodeLine line = .ok found) : items (line ++ ['\n']) = found.toList.map .ok := by
  have hclosed : decodeLine (closeLine line.reverse) = .ok found := by
    rw [← h]
    refine decodeLine_congr ?_
    rw [trimEnd_closeLine, List.reverse_reverse]
  rw [items, numberedLines, lines_cons_of_not_mem hline, numberFrom, itemsOfLines_cons, hclosed]
  cases found <;> rfl

theorem map_below_ok (n : Nat) (outcomes : List Outcome) :
    (outcomes.map .ok).map (Item.below n) = outcomes.map .ok := by
  rw [List.map_map]
  rfl

variable {entries : List (Entry × Ending)}

/-- In front of a text that gives outcomes, a transcript gives its own before them. -/
theorem items_transcript_append (h : ∀ e ∈ entries, e.1.Plain) {tail : List Char}
    {outcomes : List Outcome} (htail : items tail = outcomes.map .ok) :
    items (transcript entries ++ tail) = (stated entries ++ outcomes).map .ok := by
  induction entries with
  | nil => exact htail
  | cons e rest ih =>
      obtain ⟨entry, ending⟩ := e
      rw [List.forall_mem_cons] at h
      obtain ⟨hentry, hrest⟩ := h
      have hitems := items_append_lineFeed (hentry.lineFeed_not_mem_lead ending)
        (hentry.decodeLine_lead ending)
      rw [transcript, List.flatMap_cons, ← transcript, List.append_assoc,
        items_append (Or.inr ⟨_, rfl⟩), hitems, ih hrest, map_below_ok, ← List.map_append,
        ← List.append_assoc]
      cases hfound : entry.outcome? with
      | none => simp [stated, hfound]
      | some o => simp [stated, hfound]

theorem items_transcript (h : ∀ e ∈ entries, e.1.Plain) :
    items (transcript entries) = (stated entries).map .ok := by
  have hnil : items [] = ([] : List Outcome).map .ok := rfl
  have hitems := items_transcript_append h hnil
  rwa [List.append_nil, List.append_nil] at hitems

/-- The line feed at the end of a transcript does not matter. -/
theorem items_dropLast_transcript (h : ∀ e ∈ entries, e.1.Plain) :
    items (transcript entries).dropLast = (stated entries).map .ok := by
  rcases List.eq_nil_or_concat entries with rfl | ⟨front, ⟨entry, ending⟩, rfl⟩
  · rfl
  · rw [List.concat_eq_append, List.forall_mem_append, List.forall_mem_singleton] at h
    obtain ⟨hfront, hentry⟩ := h
    -- without its line feed the last line is a text of its own behind the other lines
    have hlast := items_of_not_mem (hentry.lineFeed_not_mem_lead ending)
      (hentry.decodeLine_lead ending)
    have hdrop : (transcript (front ++ [(entry, ending)])).dropLast =
        transcript front ++ (entry.line ++ ending.lead) := by
      simp [transcript, List.dropLast_append_of_ne_nil]
    have hstated : stated (front ++ [(entry, ending)]) = stated front ++ entry.outcome?.toList := by
      rw [stated, List.filterMap_append, ← stated]
      cases h : entry.outcome? <;> simp [h]
    rw [List.concat_eq_append, hdrop, hstated]
    exact items_transcript_append hfront hlast

/-! ## Writing again what was read -/

/-- An outcome among the items of a text is the outcome of a line. -/
theorem exists_line_of_mem_items {text : List Char} {o : Outcome} (h : .ok o ∈ items text) :
    ∃ line ∈ lines text, decodeLine line = .ok (some o) := by
  obtain ⟨⟨n, line⟩, hmem, hitem⟩ := List.mem_filterMap.1 h
  refine ⟨line, mem_of_mem_numberFrom hmem, ?_⟩
  simp only [itemOfLine?] at hitem
  split at hitem
  · cases hitem
  · next outcome houtcome =>
      cases hitem
      exact houtcome
  · cases hitem

theorem plain_of_mem_items {text : List Char} {o : Outcome} (h : .ok o ∈ items text) :
    (Entry.outcome o).Plain := by
  obtain ⟨line, hline, hdecode⟩ := exists_line_of_mem_items h
  have hstates := states_of_decodeLine hdecode
  exact ⟨hstates.wireSafe, hstates.oneLine (lineFeed_not_mem_of_mem_lines hline)⟩

/-- **Transcripts are read as they are written.** Outcomes that are safe and fit on one line, among
    lines that are skipped and with any line ends, are read in their order, with nothing between
    them; and just so without the last line feed, behind which a carriage return may be left. So
    when a text is read without a fault and what was read is written one below the other, this is
    read as the same again. -/
theorem transcript_roundTrip (entries : List (Entry × Ending)) :
    ((∀ e ∈ entries, e.1.Plain) →
      items (transcript entries) = (stated entries).map .ok ∧
      items (transcript entries).dropLast = (stated entries).map .ok) ∧
    ∀ (text : List Char) (found : List Outcome), items text = found.map .ok →
      entries.map Prod.fst = found.map .outcome →
      items (transcript entries) = items text ∧
      items (transcript entries).dropLast = items text := by
  refine ⟨fun h => ⟨items_transcript h, items_dropLast_transcript h⟩, ?_⟩
  intro text found htext hentries
  have hplain : ∀ e ∈ entries, e.1.Plain := by
    intro e he
    have hmem : e.1 ∈ found.map Entry.outcome := hentries ▸ List.mem_map_of_mem he
    obtain ⟨o, ho, heq⟩ := List.mem_map.1 hmem
    rw [← heq]
    exact plain_of_mem_items (htext ▸ List.mem_map_of_mem ho)
  have hstated : stated entries = found := by
    have hmap : stated entries = (entries.map Prod.fst).filterMap Entry.outcome? := by
      rw [List.filterMap_map]
      rfl
    rw [hmap, hentries, List.filterMap_map]
    exact List.filterMap_some
  rw [htext, ← hstated]
  exact ⟨items_transcript hplain, items_dropLast_transcript hplain⟩

/-- A user name may hold a carriage return, and one may be left behind the last line. -/
theorem transcript_roundTrip_badSig :
    items (transcript [(.aside "gpg: hint".toList, .lineFeed),
        (.outcome ⟨.badSig, [.text "01", .text "A\r\tB"], rfl, rfl, trivial⟩, .carriageReturn),
        (.aside [], .lineFeed),
        (.outcome ⟨.keyExpired, [.number 17], ⟨_, rfl, by decide, by decide⟩, trivial⟩,
          .carriageReturn)]).dropLast =
      [.ok ⟨.badSig, [.text "01", .text "A\r\tB"], rfl, rfl, trivial⟩,
        .ok ⟨.keyExpired, [.number 17], ⟨_, rfl, by decide, by decide⟩, trivial⟩] ∧
    items (transcript [(.outcome ⟨.noPubkey, [.text "K"], rfl, trivial⟩, .lineFeed)]) =
      items "?\r\nx  NO_PUBKEY K \r".toList := by
  refine ⟨((transcript_roundTrip _).1 ?_).2,
    ((transcript_roundTrip _).2 _ [⟨.noPubkey, [.text "K"], rfl, trivial⟩] rfl rfl).1⟩
  simp only [List.forall_mem_cons]
  refine ⟨⟨rfl, by decide⟩, ⟨⟨?_, ?_⟩, ?_⟩, ⟨rfl, by decide⟩, ⟨⟨nofun, ?_⟩, ?_⟩, nofun⟩
  · intro s hs
    cases List.mem_singleton.1 hs
    decide
  · rintro s ⟨⟩
    exact ⟨⟨'A', rfl, by decide⟩, ⟨'B', rfl, by decide⟩⟩
  · intro s hs
    rcases List.mem_cons.1 hs with h | h
    · cases h
      decide
    · cases List.mem_singleton.1 h
      decide
  · rintro s ⟨⟩
  · intro s hs
    cases List.mem_singleton.1 hs

end SigVerdict.Status
