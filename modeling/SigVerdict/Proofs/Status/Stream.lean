import SigVerdict.Proofs.Text.LineFeed
import SigVerdict.Status.Stream

set_option autoImplicit false

/-! # What a stream says

A stream is well formed when each of its lines can be decoded; otherwise one of its malformed lines
is the first. Collecting the items of a stream gives the outcomes of all its lines in the one case
(`collect_items_eq_ok_iff`) and the fault of the first malformed line in the other
(`collect_items_eq_error_iff`).

A line that stands by itself between line feeds is decoded as if nothing else were there
(`exists_line_between`). -/

namespace SigVerdict.Status

open Text

/-! ## Well-formed and malformed streams -/

/-- A line that gives an outcome or is skipped. -/
def DecodableLine (line : List Char) : Prop := ∃ outcome, decodeLine line = .ok outcome

/-- A stream without malformed lines. -/
def WellFormed (text : List Char) : Prop := ∀ line ∈ lines text, DecodableLine line

/-- The outcome of a line, if it gives one. -/
def outcomeOfLine? (line : List Char) : Option Outcome :=
  match decodeLine line with
  | .ok outcome => outcome
  | .error _ => none

/-- The outcomes that the lines of a stream give, in order. -/
def outcomes (text : List Char) : List Outcome := (lines text).filterMap outcomeOfLine?

/-- The fault of the first malformed one of some lines, the first of which has the number `n`. -/
def FirstMalformedFrom (n : Nat) (lines : List (List Char)) (fault : LineFault) : Prop :=
  ∃ before line after, lines = before ++ line :: after ∧ (∀ l ∈ before, DecodableLine l) ∧
    decodeLine line = .error fault.cause ∧ fault.line = String.ofList line ∧
    fault.number = n + before.length

/-- The fault of the first malformed line of a stream. -/
def FirstMalformed (text : List Char) (fault : LineFault) : Prop :=
  FirstMalformedFrom 1 (lines text) fault

theorem not_decodable_iff {line : List Char} :
    ¬DecodableLine line ↔ ∃ cause, decodeLine line = .error cause := by
  unfold DecodableLine
  cases decodeLine line with
  | ok outcome => simp
  | error cause => simp

theorem FirstMalformedFrom.cons {n : Nat} {line : List Char} {rest : List (List Char)}
    {fault : LineFault} (hline : DecodableLine line) (h : FirstMalformedFrom (n + 1) rest fault) :
    FirstMalformedFrom n (line :: rest) fault := by
  obtain ⟨before, bad, after, rfl, hbefore, hbad, htext, hnumber⟩ := h
  refine ⟨line :: before, bad, after, rfl, ?_, hbad, htext, ?_⟩
  · intro l hl
    rcases List.mem_cons.1 hl with rfl | hl
    · exact hline
    · exact hbefore l hl
  · rw [hnumber, List.length_cons]
    omega

/-- Lines that cannot all be decoded have a first malformed one. -/
theorem exists_firstMalformedFrom {lines : List (List Char)}
    (h : ¬∀ line ∈ lines, DecodableLine line) (n : Nat) :
    ∃ fault, FirstMalformedFrom n lines fault := by
  induction lines generalizing n with
  | nil => simp at h
  | cons line rest ih =>
      by_cases hline : DecodableLine line
      · have hrest : ¬∀ l ∈ rest, DecodableLine l := fun hrest => h (by simpa [hline] using hrest)
        obtain ⟨fault, hfault⟩ := ih hrest (n + 1)
        exact ⟨fault, hfault.cons hline⟩
      · obtain ⟨cause, hcause⟩ := not_decodable_iff.1 hline
        exact ⟨⟨n, String.ofList line, cause⟩, [], line, rest, rfl, by simp, hcause, rfl, rfl⟩

theorem FirstMalformed.not_wellFormed {text : List Char} {fault : LineFault}
    (h : FirstMalformed text fault) : ¬WellFormed text := by
  obtain ⟨before, line, after, hlines, -, hline, -⟩ := h
  have hmem : line ∈ lines text := by
    rw [hlines]
    exact List.mem_append_right _ List.mem_cons_self
  exact fun hwell => not_decodable_iff.2 ⟨_, hline⟩ (hwell line hmem)

/-- A stream that says nothing: all of its lines are skipped. -/
def Silent (text : List Char) : Prop := ∀ line ∈ lines text, decodeLine line = .ok none

theorem silent_iff {text : List Char} : Silent text ↔ WellFormed text ∧ outcomes text = [] := by
  rw [outcomes, List.filterMap_eq_nil_iff]
  constructor
  · intro h
    refine ⟨fun line hline => ⟨none, h line hline⟩, fun line hline => ?_⟩
    rw [outcomeOfLine?, h line hline]
  · rintro ⟨hwell, hnone⟩ line hline
    obtain ⟨outcome, houtcome⟩ := hwell line hline
    have h := hnone line hline
    rw [outcomeOfLine?, houtcome] at h
    exact houtcome.trans (congrArg Except.ok h)

/-! ## Collecting -/

theorem itemsOfLines_cons (n : Nat) (line : List Char) (rest : List (Nat × List Char)) :
    itemsOfLines ((n, line) :: rest) =
      match decodeLine line with
      | .ok none => itemsOfLines rest
      | .ok (some outcome) => .ok outcome :: itemsOfLines rest
      | .error cause => .error ⟨n, String.ofList line, cause⟩ :: itemsOfLines rest := by
  simp only [itemsOfLines, List.filterMap_cons, itemOfLine?]
  cases decodeLine line with
  | error cause => rfl
  | ok outcome => cases outcome <;> rfl

/-- Numbered lines that can all be decoded are collected to the outcomes that they give. -/
theorem collect_of_decodable {lines : List (List Char)} (h : ∀ line ∈ lines, DecodableLine line)
    (n : Nat) :
    collect (itemsOfLines (numberFrom n lines)) = .ok (lines.filterMap outcomeOfLine?) := by
  induction lines generalizing n with
  | nil => rfl
  | cons line rest ih =>
      obtain ⟨outcome, hline⟩ := h line List.mem_cons_self
      have hrest := ih (fun l hl => h l (List.mem_cons_of_mem _ hl)) (n + 1)
      rw [numberFrom, itemsOfLines_cons, List.filterMap_cons, outcomeOfLine?, hline]
      cases outcome with
      | none => exact hrest
      | some outcome =>
          simp only [collect, hrest]
          rfl

/-- Numbered lines of which one is malformed are collected to the fault of the first such line. -/
theorem collect_of_firstMalformedFrom {n : Nat} {lines : List (List Char)} {fault : LineFault}
    (h : FirstMalformedFrom n lines fault) :
    collect (itemsOfLines (numberFrom n lines)) = .error fault := by
  obtain ⟨before, bad, after, rfl, hbefore, hbad, htext, hnumber⟩ := h
  induction before generalizing n with
  | nil =>
      have hfault : fault = ⟨n, String.ofList bad, fault.cause⟩ := by
        cases fault
        simp_all
      rw [List.nil_append, numberFrom, itemsOfLines_cons, hbad]
      simp only [collect]
      rw [← hfault]
  | cons line rest ih =>
      obtain ⟨outcome, hline⟩ := hbefore line List.mem_cons_self
      have hrest := ih (fun l hl => hbefore l (List.mem_cons_of_mem _ hl)) (n := n + 1)
        (by rw [hnumber, List.length_cons]; omega)
      rw [List.cons_append, numberFrom, itemsOfLines_cons, hline]
      cases outcome with
      | none => exact hrest
      | some outcome =>
          simp only [collect, hrest]
          rfl

/-- A stream is collected to outcomes exactly when it is well formed, and then to all of its
    outcomes. -/
theorem collect_items_eq_ok_iff {text : List Char} {found : List Outcome} :
    collect (items text) = .ok found ↔ WellFormed text ∧ found = outcomes text := by
  by_cases h : WellFormed text
  · have hcollect : collect (items text) = .ok (outcomes text) := collect_of_decodable h 1
    rw [hcollect, Except.ok.injEq]
    exact ⟨fun he => ⟨h, he.symm⟩, fun he => he.2.symm⟩
  · obtain ⟨fault, hfault⟩ := exists_firstMalformedFrom h 1
    have hcollect : collect (items text) = .error fault := collect_of_firstMalformedFrom hfault
    rw [hcollect]
    exact ⟨nofun, fun he => absurd he.1 h⟩

/-- A stream is collected to a fault exactly when it is the fault of its first malformed line. -/
theorem collect_items_eq_error_iff {text : List Char} {fault : LineFault} :
    collect (items text) = .error fault ↔ FirstMalformed text fault := by
  refine ⟨fun h => ?_, fun h => collect_of_firstMalformedFrom h⟩
  have hbad : ¬WellFormed text := fun hwell => by
    rw [collect_items_eq_ok_iff.2 ⟨hwell, rfl⟩] at h
    cases h
  obtain ⟨other, hother⟩ := exists_firstMalformedFrom hbad 1
  have hcollect : collect (items text) = .error other := collect_of_firstMalformedFrom hother
  rw [h] at hcollect
  cases hcollect
  exact hother

/-! ## Lines between line feeds -/

theorem trimEnd_closeLine (held : List Char) : trimEnd (closeLine held) = trimEnd held.reverse := by
  unfold closeLine
  split
  · next held =>
      have hblank : isBlank '\r' = true := by decide
      simp only [trimEnd, List.reverse_reverse, List.dropWhile_cons, hblank, if_true]
  · rfl

/-- Blanks at the end of a line do not matter. -/
theorem decodeLine_congr {a b : List Char} (h : trimEnd a = trimEnd b) :
    decodeLine a = decodeLine b := by
  rw [decodeLine, decodeLine, h]

/-- The empty line is skipped. -/
theorem decodeLine_nil : decodeLine [] = .ok none := rfl

/-- What stands alone between line feeds is a line of the text, and is decoded as if nothing stood
    around it. -/
theorem exists_line_between {front line behind : List Char}
    (hfront : front = [] ∨ ∃ before, front = before ++ ['\n']) (hline : '\n' ∉ line)
    (hbehind : behind = [] ∨ ∃ after, behind = '\n' :: after) (hne : decodeLine line ≠ .ok none) :
    ∃ found ∈ lines (front ++ line ++ behind), decodeLine found = decodeLine line := by
  have hnil : line ≠ [] := fun h => hne (h ▸ decodeLine_nil)
  -- the line is the first one of what stands behind `front`
  have hfirst : ∃ found ∈ lines (line ++ behind), decodeLine found = decodeLine line := by
    rcases hbehind with rfl | ⟨after, rfl⟩
    · rw [List.append_nil, lines_of_not_mem hline hnil]
      exact ⟨line, List.mem_singleton_self line, rfl⟩
    · rw [lines_cons_of_not_mem hline]
      refine ⟨closeLine line.reverse, List.mem_cons_self, decodeLine_congr ?_⟩
      rw [trimEnd_closeLine, List.reverse_reverse]
  obtain ⟨found, hfound, hdecode⟩ := hfirst
  refine ⟨found, ?_, hdecode⟩
  rcases hfront with rfl | ⟨before, rfl⟩
  · exact hfound
  · rw [List.append_assoc, List.append_assoc, List.singleton_append, lines_append_lineFeed]
    exact List.mem_append_right _ hfound

end SigVerdict.Status
