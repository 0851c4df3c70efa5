import Mathlib.Data.List.Forall2
import SigVerdict.Proofs.Status.Stream

set_option autoImplicit false

/-! # Positions of decoders

The items of a stream are what its lines give one after another (`TextGives`). A decoder holds the
lines that it has not read, and which of them are skipped shows only when they are read. Seen from
outside it is at a position in the list of items (`Decoder.At`): what it has yet to give are the
items from there on. A step of a session is a step on positions (`Moves`), which moves the decoder
that it names and no other, and a session is a row of such steps (`Session.run_positions`). -/

namespace SigVerdict.Status

open Text

/-! ## The items of a stream -/

/-- What a line of the given number gives. -/
inductive LineGives (number : Nat) (line : List Char) : List Item → Prop where
  | skipped (h : decodeLine line = .ok none) : LineGives number line []
  | outcome {outcome : Outcome} (h : decodeLine line = .ok (some outcome)) :
      LineGives number line [.ok outcome]
  | fault {cause : FieldFault} (h : decodeLine line = .error cause) :
      LineGives number line [.error ⟨number, String.ofList line, cause⟩]

/-- What ends a line: a line feed, and the one carriage return that may stand before it. -/
inductive LineEnd (line : List Char) : List Char → Prop where
  | lineFeed (h : line.getLast? ≠ some '\r') : LineEnd line ['\n']
  | carriageReturn : LineEnd line ['\r', '\n']

/-- What a text gives, line by line, if its first line has the given number. -/
inductive TextGives : Nat → List Char → List Item → Prop where
  | empty {n : Nat} : TextGives n [] []
  | last {n : Nat} {line : List Char} {given : List Item} (hline : '\n' ∉ line) (hne : line ≠ [])
      (hgiven : LineGives n line given) : TextGives n line given
  | line {n : Nat} {line ending rest : List Char} {given later : List Item} (hline : '\n' ∉ line)
      (hending : LineEnd line ending) (hgiven : LineGives n line given)
      (hlater : TextGives (n + 1) rest later) :
      TextGives n (line ++ ending ++ rest) (given ++ later)

theorem lineGives_item (n : Nat) (line : List Char) :
    LineGives n line (itemOfLine? n line).toList := by
  unfold itemOfLine?
  cases h : decodeLine line with
  | error cause => exact .fault h
  | ok outcome =>
      cases outcome with
      | none => exact .skipped h
      | some outcome => exact .outcome h

theorem exists_lineEnd (held : List Char) :
    ∃ ending, LineEnd (closeLine held) ending ∧
      held.reverse ++ ['\n'] = closeLine held ++ ending := by
  unfold closeLine
  split
  · next held => exact ⟨['\r', '\n'], .carriageReturn, by simp⟩
  · next hheld =>
      refine ⟨['\n'], .lineFeed fun hlast => ?_, rfl⟩
      rw [List.getLast?_reverse] at hlast
      obtain ⟨rest, rfl⟩ := List.head?_eq_some_iff.1 hlast
      exact hheld rest rfl

theorem itemsOfLines_cons_toList (n : Nat) (line : List Char) (rest : List (Nat × List Char)) :
    itemsOfLines ((n, line) :: rest) = (itemOfLine? n line).toList ++ itemsOfLines rest := by
  simp only [itemsOfLines, List.filterMap_cons]
  cases itemOfLine? n line <;> rfl

/-- Numbered lines give what their text gives. -/
theorem textGives_itemsOfLines (n : Nat) (text : List Char) :
    TextGives n text (itemsOfLines (numberFrom n (lines text))) := by
  induction hlength : text.length using Nat.strongRecOn generalizing n text with
  | ind length ih =>
      subst hlength
      by_cases hmem : '\n' ∈ text
      · -- the first line is what stands in front of the first line feed
        obtain ⟨line, rest, rfl, hline⟩ := List.eq_append_cons_of_mem hmem
        obtain ⟨ending, hending, heq⟩ := exists_lineEnd line.reverse
        rw [List.reverse_reverse] at heq
        have hclosed : '\n' ∉ closeLine line.reverse :=
          not_mem_closeLine fun hmem => hline (List.mem_reverse.1 hmem)
        have hlater := ih rest.length (by simp; omega) (n + 1) rest rfl
        rw [lines_cons_of_not_mem hline, numberFrom, itemsOfLines_cons_toList,
          show line ++ '\n' :: rest = closeLine line.reverse ++ ending ++ rest by
            rw [← heq, List.append_assoc, List.singleton_append]]
        exact .line hclosed hending (lineGives_item n _) hlater
      · by_cases hne : text = []
        · rw [hne]
          exact .empty
        · rw [lines_of_not_mem hmem hne, numberFrom, itemsOfLines_cons_toList]
          exact .last hmem hne (by simpa [numberFrom, itemsOfLines] using lineGives_item n text)

/-! ## One decoder -/

namespace Decoder

/-- What is left behind the first fault of some items. -/
def behindFault : List Item → List Item
  | [] => []
  | .error _ :: rest => rest
  | .ok _ :: rest => behindFault rest

/-- The next item is the first of those that are left, and the others are left then. -/
theorem next_spec (d : Decoder) : d.next.1 = d.items.head? ∧ d.next.2.items = d.items.tail := by
  obtain ⟨lines⟩ := d
  simp only [next, items]
  induction lines with
  | nil => exact ⟨rfl, rfl⟩
  | cons first rest ih =>
      obtain ⟨number, line⟩ := first
      rw [itemsOfLines_cons_toList, nextOf]
      cases itemOfLine? number line with
      | none => exact ih
      | some item => exact ⟨rfl, rfl⟩

/-- The items that are left are counted, and none is left then. -/
theorem count_spec (d : Decoder) : d.count.1 = d.items.length ∧ d.count.2.items = [] := by
  obtain ⟨lines⟩ := d
  simp only [count, items]
  induction lines with
  | nil => exact ⟨rfl, rfl⟩
  | cons first rest ih =>
      obtain ⟨number, line⟩ := first
      rw [itemsOfLines_cons_toList, countOf]
      cases itemOfLine? number line with
      | none => exact ih
      | some item => exact ⟨congrArg (· + 1) ih.1, ih.2⟩

/-- The items that are left are collected, and what is behind the first fault is left then. -/
theorem collect_spec (d : Decoder) :
    d.collect.1 = Status.collect d.items ∧ d.collect.2.items = behindFault d.items := by
  obtain ⟨lines⟩ := d
  simp only [collect, items]
  induction lines with
  | nil => exact ⟨rfl, rfl⟩
  | cons first rest ih =>
      obtain ⟨number, line⟩ := first
      rw [itemsOfLines_cons_toList, collectOf]
      cases itemOfLine? number line with
      | none => exact ih
      | some item =>
          cases item with
          | error fault => exact ⟨rfl, rfl⟩
          | ok outcome => exact ⟨congrArg (Except.map (outcome :: ·)) ih.1, ih.2⟩

/-- A decoder is at a position in a list of items: it has yet to give those from there on. -/
structure At (all : List Item) (d : Decoder) (p : Nat) : Prop where
  le : p ≤ all.length
  items : d.items = all.drop p

end Decoder

theorem collect_map_ok (outcomes : List Outcome) :
    collect (outcomes.map .ok) = .ok outcomes ∧ Decoder.behindFault (outcomes.map .ok) = [] := by
  induction outcomes with
  | nil => exact ⟨rfl, rfl⟩
  | cons outcome rest ih => exact ⟨congrArg (Except.map (outcome :: ·)) ih.1, ih.2⟩

theorem collect_append_error (outcomes : List Outcome) (fault : LineFault) (left : List Item) :
    collect (outcomes.map .ok ++ .error fault :: left) = .error fault ∧
      Decoder.behindFault (outcomes.map .ok ++ .error fault :: left) = left := by
  induction outcomes with
  | nil => exact ⟨rfl, rfl⟩
  | cons outcome rest ih => exact ⟨congrArg (Except.map (outcome :: ·)) ih.1, ih.2⟩

/-- Items are all outcomes, or there is a first fault among them. -/
theorem outcomes_or_fault (all : List Item) :
    (∃ outcomes : List Outcome, all = outcomes.map .ok) ∨
      ∃ (outcomes : List Outcome) (fault : LineFault) (left : List Item),
        all = outcomes.map .ok ++ .error fault :: left := by
  induction all with
  | nil => exact Or.inl ⟨[], rfl⟩
  | cons item rest ih =>
      cases item with
      | error fault => exact Or.inr ⟨[], fault, rest, rfl⟩
      | ok outcome =>
          rcases ih with ⟨outcomes, rfl⟩ | ⟨outcomes, fault, left, rfl⟩
          · exact Or.inl ⟨outcome :: outcomes, rfl⟩
          · exact Or.inr ⟨outcome :: outcomes, fault, left, rfl⟩

/-! ## Steps on positions -/

/-- The decoder that a step names. -/
def Step.decoder? : Step → Option Nat
  | .next i | .clone i | .count i | .collect i => some i
  | .fresh => none

/-- What a step does when decoders are at the given positions in a list of items: the answer, and
    the positions afterwards. -/
inductive Moves (all : List Item) (ps : List Nat) : Step → Answer → List Nat → Prop where
  | fresh : Moves all ps .fresh (.decoder ps.length) (ps ++ [0])
  | clone {i p : Nat} (hp : ps[i]? = some p) :
      Moves all ps (.clone i) (.decoder ps.length) (ps ++ [p])
  | next {i p : Nat} {item : Item} (hp : ps[i]? = some p) (hitem : all[p]? = some item) :
      Moves all ps (.next i) (.item (some item)) (ps.set i (p + 1))
  | ended {i : Nat} (hp : ps[i]? = some all.length) : Moves all ps (.next i) (.item none) ps
  | count {i p : Nat} (hp : ps[i]? = some p) :
      Moves all ps (.count i) (.count (all.length - p)) (ps.set i all.length)
  | collected {i p : Nat} {outcomes : List Outcome} (hp : ps[i]? = some p)
      (hleft : all.drop p = outcomes.map .ok) :
      Moves all ps (.collect i) (.collected (.ok outcomes)) (ps.set i all.length)
  | stopped {i p : Nat} {outcomes : List Outcome} {fault : LineFault} {left : List Item}
      (hp : ps[i]? = some p) (hleft : all.drop p = outcomes.map .ok ++ .error fault :: left) :
      Moves all ps (.collect i) (.collected (.error fault)) (ps.set i (p + outcomes.length + 1))
  | unknown {step : Step} {i : Nat} (hstep : step.decoder? = some i) (hp : ps[i]? = none) :
      Moves all ps step .unknown ps

/-- What steps do one after another. -/
inductive Runs (all : List Item) : List Nat → List Step → List Answer → List Nat → Prop where
  | nil {ps : List Nat} : Runs all ps [] [] ps
  | cons {ps ps' ps'' : List Nat} {step : Step} {steps : List Step} {answer : Answer}
      {answers : List Answer} (hstep : Moves all ps step answer ps')
      (hsteps : Runs all ps' steps answers ps'') :
      Runs all ps (step :: steps) (answer :: answers) ps''

variable {all : List Item} {ps ps' : List Nat}

theorem set_eq_self {i p : Nat} (hp : ps[i]? = some p) : ps.set i p = ps := by
  obtain ⟨hlt, rfl⟩ := List.getElem?_eq_some_iff.1 hp
  exact List.set_getElem_self hlt

/-- A decoder at the end remains there, whatever is done. -/
theorem Moves.stays_at_end {step : Step} {answer : Answer} (h : Moves all ps step answer ps')
    {j : Nat} (hj : ps[j]? = some all.length) : ps'[j]? = some all.length := by
  have hlt : j < ps.length := (List.getElem?_eq_some_iff.1 hj).1
  -- moving a decoder that is not at the end moves another one
  have hset {i p q : Nat} (hp : ps[i]? = some p) (hq : p = all.length → q = all.length) :
      (ps.set i q)[j]? = some all.length := by
    by_cases hij : i = j
    · subst hij
      rw [List.getElem?_set_self hlt, hq (Option.some.inj (hp.symm.trans hj))]
    · rw [List.getElem?_set_ne hij, hj]
  cases h with
  | fresh => rw [List.getElem?_append_left hlt, hj]
  | clone hp => rw [List.getElem?_append_left hlt, hj]
  | next hp hitem =>
      exact hset hp fun heq => absurd (List.getElem?_eq_some_iff.1 hitem).1 (by omega)
  | ended hp => exact hj
  | count hp => exact hset hp fun _ => rfl
  | collected hp hleft => exact hset hp fun _ => rfl
  | stopped hp hleft =>
      refine hset hp fun heq => ?_
      rw [heq, List.drop_length] at hleft
      simp at hleft
  | unknown hstep hp => exact hj

theorem Runs.stays_at_end {steps : List Step} {answers : List Answer}
    (h : Runs all ps steps answers ps') {j : Nat} (hj : ps[j]? = some all.length) :
    ps'[j]? = some all.length := by
  induction h with
  | nil => exact hj
  | cons hstep hsteps ih => exact ih (hstep.stays_at_end hj)

/-! ## Decoders and their positions -/

namespace Decoder

variable {d : Decoder} {p : Nat}

theorem at_start (text : List Char) : At (Status.items text) (ofText text) 0 :=
  ⟨Nat.zero_le _, rfl⟩

theorem At.next_of_item {item : Item} (h : At all d p) (hitem : all[p]? = some item) :
    d.next.1 = some item ∧ At all d.next.2 (p + 1) := by
  obtain ⟨hnext, hleft⟩ := d.next_spec
  obtain ⟨hlt, -⟩ := List.getElem?_eq_some_iff.1 hitem
  refine ⟨?_, hlt, ?_⟩
  · rw [hnext, h.items, List.head?_drop, hitem]
  · rw [hleft, h.items, List.tail_drop]

theorem At.next_of_end (h : At all d all.length) :
    d.next.1 = none ∧ At all d.next.2 all.length := by
  obtain ⟨hnext, hleft⟩ := d.next_spec
  rw [h.items, List.drop_length] at hnext hleft
  exact ⟨hnext, Nat.le_refl _, by rw [hleft, List.drop_length]; rfl⟩

theorem At.count (h : At all d p) :
    d.count.1 = all.length - p ∧ At all d.count.2 all.length := by
  obtain ⟨hcount, hleft⟩ := d.count_spec
  refine ⟨?_, Nat.le_refl _, ?_⟩
  · rw [hcount, h.items, List.length_drop]
  · rw [hleft, List.drop_length]

theorem At.collect_of_outcomes {outcomes : List Outcome} (h : At all d p)
    (hleft : all.drop p = outcomes.map .ok) :
    d.collect.1 = .ok outcomes ∧ At all d.collect.2 all.length := by
  obtain ⟨hcollect, hbehind⟩ := d.collect_spec
  obtain ⟨hok, hnil⟩ := collect_map_ok outcomes
  rw [h.items, hleft] at hcollect hbehind
  refine ⟨hcollect.trans hok, Nat.le_refl _, ?_⟩
  rw [hbehind, hnil, List.drop_length]

theorem At.collect_of_fault {outcomes : List Outcome} {fault : LineFault} {left : List Item}
    (h : At all d p) (hleft : all.drop p = outcomes.map .ok ++ .error fault :: left) :
    d.collect.1 = .error fault ∧ At all d.collect.2 (p + outcomes.length + 1) := by
  obtain ⟨hcollect, hbehind⟩ := d.collect_spec
  obtain ⟨herror, hrest⟩ := collect_append_error outcomes fault left
  rw [h.items, hleft] at hcollect hbehind
  have hlength := congrArg List.length hleft
  rw [List.length_drop, List.length_append, List.length_map, List.length_cons] at hlength
  refine ⟨hcollect.trans herror, by omega, ?_⟩
  rw [hbehind, hrest, Nat.add_assoc, ← List.drop_drop, hleft]
  simp [List.drop_append]

end Decoder

/-! ## Sessions -/

namespace Session

/-- The decoders of a session are at the given positions in the items of its stream. -/
def StandsAt (s : Session) (ps : List Nat) : Prop :=
  List.Forall₂ (Decoder.At (items s.text)) s.decoders ps

variable {s : Session}

theorem StandsAt.exists_decoder {i p : Nat} (h : s.StandsAt ps) (hp : ps[i]? = some p) :
    ∃ d, s.decoders[i]? = some d ∧ Decoder.At (items s.text) d p := by
  obtain ⟨hlt, rfl⟩ := List.getElem?_eq_some_iff.1 hp
  have hlt' : i < s.decoders.length := by rwa [h.length_eq]
  exact ⟨_, List.getElem?_eq_getElem hlt', h.get hlt' hlt⟩

theorem StandsAt.push {d : Decoder} {p : Nat} (h : s.StandsAt ps)
    (hd : Decoder.At (items s.text) d p) :
    StandsAt { s with decoders := s.decoders ++ [d] } (ps ++ [p]) :=
  List.rel_append h (.cons hd .nil)

theorem StandsAt.set {d : Decoder} {p : Nat} (h : s.StandsAt ps) (i : Nat)
    (hd : Decoder.At (items s.text) d p) :
    StandsAt { s with decoders := s.decoders.set i d } (ps.set i p) := by
  obtain ⟨text, decoders⟩ := s
  simp only [StandsAt] at h hd ⊢
  induction h generalizing i with
  | nil => exact .nil
  | cons hfirst hrest ih =>
      cases i with
      | zero => exact .cons hd hrest
      | succ i => exact .cons hfirst (ih i)

theorem step_of_missing {step : Step} {i : Nat} (hstep : step.decoder? = some i)
    (hi : s.decoders[i]? = none) : s.step step = (.unknown, s) := by
  cases step <;> cases hstep <;> simp only [Session.step, hi]

/-- A step on a decoder leaves the others as they are. -/
theorem step_others {step : Step} {j : Nat} (hstep : step.decoder? ≠ some j)
    (hj : j < s.decoders.length) : (s.step step).2.decoders[j]? = s.decoders[j]? := by
  have hset {i : Nat} (hne : some i ≠ some j) (d : Decoder) :
      (s.decoders.set i d)[j]? = s.decoders[j]? :=
    List.getElem?_set_ne fun heq => hne (congrArg some heq)
  cases step with
  | fresh => exact List.getElem?_append_left hj
  | clone i =>
      simp only [Session.step]
      split
      · rfl
      · exact List.getElem?_append_left hj
  | next i | count i | collect i =>
      simp only [Session.step]
      split
      · rfl
      · exact hset hstep _

/-- A step of a session whose decoders are at the given positions moves these positions. -/
def StepMoves (s : Session) (ps : List Nat) (step : Step) : Prop :=
  ∃ ps', Moves (items s.text) ps step (s.step step).1 ps' ∧ (s.step step).2.StandsAt ps'

section Steps

variable {i p : Nat}

theorem StandsAt.fresh (h : s.StandsAt ps) : s.StepMoves ps .fresh := by
  refine ⟨ps ++ [0], ?_, h.push (Decoder.at_start s.text)⟩
  rw [Session.step, h.length_eq]
  exact .fresh

theorem StandsAt.clone (h : s.StandsAt ps) (hp : ps[i]? = some p) : s.StepMoves ps (.clone i) := by
  obtain ⟨d, hd, hat⟩ := h.exists_decoder hp
  simp only [StepMoves, Session.step, hd, h.length_eq]
  exact ⟨_, .clone hp, h.push hat⟩

theorem StandsAt.next (h : s.StandsAt ps) (hp : ps[i]? = some p) : s.StepMoves ps (.next i) := by
  obtain ⟨d, hd, hat⟩ := h.exists_decoder hp
  simp only [StepMoves, Session.step, hd]
  cases hitem : (items s.text)[p]? with
  | some item =>
      obtain ⟨hnext, hat'⟩ := hat.next_of_item hitem
      rw [hnext]
      exact ⟨_, .next hp hitem, h.set i hat'⟩
  | none =>
      obtain rfl : p = (items s.text).length :=
        Nat.le_antisymm hat.le (List.getElem?_eq_none_iff.1 hitem)
      obtain ⟨hnext, hat'⟩ := hat.next_of_end
      -- the decoder reads the lines that are left, which are all skipped, and its place is the same
      have hset := h.set i hat'
      rw [set_eq_self hp] at hset
      rw [hnext]
      exact ⟨ps, .ended hp, hset⟩

theorem StandsAt.count (h : s.StandsAt ps) (hp : ps[i]? = some p) : s.StepMoves ps (.count i) := by
  obtain ⟨d, hd, hat⟩ := h.exists_decoder hp
  obtain ⟨hcount, hat'⟩ := hat.count
  simp only [StepMoves, Session.step, hd, hcount]
  exact ⟨_, .count hp, h.set i hat'⟩

theorem StandsAt.collect (h : s.StandsAt ps) (hp : ps[i]? = some p) :
    s.StepMoves ps (.collect i) := by
  obtain ⟨d, hd, hat⟩ := h.exists_decoder hp
  simp only [StepMoves, Session.step, hd]
  rcases outcomes_or_fault ((items s.text).drop p) with
    ⟨outcomes, hleft⟩ | ⟨outcomes, fault, left, hleft⟩
  · obtain ⟨hcollect, hat'⟩ := hat.collect_of_outcomes hleft
    rw [hcollect]
    exact ⟨_, .collected hp hleft, h.set i hat'⟩
  · obtain ⟨hcollect, hat'⟩ := hat.collect_of_fault hleft
    rw [hcollect]
    exact ⟨_, .stopped hp hleft, h.set i hat'⟩

end Steps

/-- A step moves positions. -/
theorem StandsAt.step (h : s.StandsAt ps) (step : Step) : s.StepMoves ps step := by
  cases hstep : step.decoder? with
  | none =>
      cases step with
      | fresh => exact h.fresh
      | _ => cases hstep
  | some i =>
      cases hp : ps[i]? with
      | none =>
          have hi : s.decoders[i]? = none := by
            rw [List.getElem?_eq_none_iff, h.length_eq]
            exact List.getElem?_eq_none_iff.1 hp
          rw [StepMoves, step_of_missing hstep hi]
          exact ⟨ps, .unknown hstep hp, h⟩
      | some p =>
          cases step <;> cases hstep
          · exact h.next hp
          · exact h.clone hp
          · exact h.count hp
          · exact h.collect hp

theorem text_step (s : Session) (step : Step) : (s.step step).2.text = s.text := by
  cases step <;> simp only [Session.step] <;> split <;> rfl

/-- Steps one after another are steps on positions. -/
theorem StandsAt.run (h : s.StandsAt ps) (steps : List Step) :
    ∃ ps', Runs (items s.text) ps steps (s.run steps).1 ps' ∧ (s.run steps).2.StandsAt ps' ∧
      (s.run steps).2.text = s.text := by
  induction steps generalizing s ps with
  | nil => exact ⟨ps, .nil, h, rfl⟩
  | cons step steps ih =>
      obtain ⟨ps', hmoves, hstands⟩ := h.step step
      obtain ⟨ps'', hruns, hstands', htext⟩ := ih hstands
      rw [text_step] at hruns htext
      exact ⟨ps'', .cons hmoves hruns, hstands', htext⟩

theorem standsAt_ofText (text : List Char) : (ofText text).StandsAt [0] :=
  .cons (Decoder.at_start text) .nil

/-- A decoder that has no items left gives none, whatever was done in between. -/
theorem StandsAt.next_after_end {i : Nat} (h : s.StandsAt ps)
    (hi : ps[i]? = some (items s.text).length) (later : List Step) :
    ((s.run later).2.step (.next i)).1 = .item none := by
  obtain ⟨ps', hruns, hstands, htext⟩ := h.run later
  obtain ⟨d, hd, hat⟩ := hstands.exists_decoder (hruns.stays_at_end hi)
  rw [htext] at hat
  simp only [Session.step, hd, hat.next_of_end.1]

/-- **Sessions are sessions of positions.** Any steps on the decoders of a stream are steps on
    positions in the list of its items, which is what the lines of the stream give one after
    another: they answer what is at these positions, and leave each decoder at one of them. No step
    touches a decoder that it does not name, and a decoder at the end gives nothing ever after. -/
theorem run_positions (text : List Char) (steps : List Step) :
    ∃ (answers : List Answer) (s : Session) (ps : List Nat),
      (ofText text).run steps = (answers, s) ∧ s.text = text ∧ TextGives 1 text (items text) ∧
      Runs (items text) [0] steps answers ps ∧
      List.Forall₂ (Decoder.At (items text)) s.decoders ps ∧
      (∀ (step : Step) (j : Nat), step.decoder? ≠ some j → j < s.decoders.length →
        (s.step step).2.decoders[j]? = s.decoders[j]?) ∧
      ∀ (i : Nat) (later : List Step), ps[i]? = some (items text).length →
        ((s.run later).2.step (.next i)).1 = .item none := by
  obtain ⟨ps, hruns, hstands, htext⟩ := (standsAt_ofText text).run steps
  have hafter := fun (i : Nat) later hi => hstands.next_after_end (i := i) hi later
  rw [StandsAt] at hstands
  rw [htext] at hafter hstands
  exact ⟨_, _, ps, rfl, htext, textGives_itemsOfLines 1 text, hruns, hstands,
    fun _ _ => step_others, hafter⟩

/-- A copy keeps its place, and a decoder goes on behind the fault that it stopped at. -/
example : ((ofText "x NO_PUBKEY A\nx\nx ERRSIG\r\nx NO_PUBKEY B".toList).run
      [.next 0, .clone 0, .collect 0, .next 0, .next 0, .count 1]).1 =
    [.item (some (.ok ⟨.noPubkey, [.text "A"], rfl, trivial⟩)), .decoder 1,
      .collected (.error ⟨3, "x ERRSIG", .missing .errSig "keyid"⟩),
      .item (some (.ok ⟨.noPubkey, [.text "B"], rfl, trivial⟩)), .item none, .count 2] := rfl

end Session

end SigVerdict.Status
