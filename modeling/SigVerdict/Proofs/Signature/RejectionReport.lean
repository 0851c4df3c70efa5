import SigVerdict.Proofs.Text.Numeral
import SigVerdict.Proofs.Text.Wrap
import SigVerdict.Signature.Rejection

set_option autoImplicit false

/-! # What a report tells

A report of a rejection can be read back. Its heading ends behind the numeral of the exit code, and
what stands behind the heading is the status, or the bullet points of the reasons. The lines of
these start with a bullet or with the indent, whatever the reasons say, since a word does not stand
at the start of a line. So the words of each reason are found again (`readBullets_bulletPoints`),
and nothing but the white space between them is lost (`report_eq_iff`). -/

namespace SigVerdict.Text

/-- Tokens with single spaces between them are found again as words. -/
theorem words_joinWith {ws : List (List Char)} (h : ∀ word ∈ ws, Token word) :
    words (joinWith [' '] ws) = ws := by
  induction ws with
  | nil => rfl
  | cons word ws ih =>
      rw [List.forall_mem_cons] at h
      cases ws with
      | nil =>
          have hword := words_append_token blank_nil h.1 boundary_nil
          simpa [words_of_blank blank_nil, joinWith] using hword
      | cons next ws =>
          have hword := words_append_token blank_nil h.1
            (gap_space.boundary (joinWith [' '] (next :: ws)))
          rw [words_append_of_blank gap_space.2, ih h.2] at hword
          simpa [joinWith] using hword

namespace Wrap

/-! ## Reading bullet points -/

/-- The words on some lines in front of the first bullet, and those of each bullet point. -/
def readLines : List (List Char) → List (List Char) × List (List (List Char))
  | [] => ([], [])
  | line :: lines =>
    match bullet.isPrefixOf? line with
    | some body => ([], (words body ++ (readLines lines).1) :: (readLines lines).2)
    | none => (words line ++ (readLines lines).1, (readLines lines).2)

/-- The words of each bullet point of a text. -/
def readBullets (cs : List Char) : List (List (List Char)) := (readLines (cs.splitOn '\n')).2

variable {line : Line} {lines : List (List Char)} {others : List Line}

theorem readLines_cons_bullet (hlead : line.lead = bullet)
    (hwords : ∀ word ∈ line.words, Token word) :
    readLines (line.text :: lines) =
      ([], (line.words ++ (readLines lines).1) :: (readLines lines).2) := by
  have hbullet : bullet.isPrefixOf? line.text = some (joinWith [' '] line.words) := by
    rw [List.isPrefixOf?_eq_some_iff_append_eq, Line.text, hlead]
  rw [readLines, hbullet]
  simp only [words_joinWith hwords]

theorem readLines_cons_indent (hlead : line.lead = indent)
    (hwords : ∀ word ∈ line.words, Token word) :
    readLines (line.text :: lines) =
      (line.words ++ (readLines lines).1, (readLines lines).2) := by
  have hnone : bullet.isPrefixOf? line.text = none := by
    rw [Line.text, hlead]
    rfl
  have hblank : Blank indent := by decide
  rw [readLines, hnone]
  simp only [Line.text, hlead, words_append_of_blank hblank, words_joinWith hwords]

theorem readLines_append_indent (hlead : ∀ line ∈ others, line.lead = indent)
    (hwords : ∀ line ∈ others, ∀ word ∈ line.words, Token word) :
    readLines (others.map Line.text ++ lines) =
      (others.flatMap Line.words ++ (readLines lines).1, (readLines lines).2) := by
  induction others with
  | nil => rfl
  | cons line others ih =>
      rw [List.forall_mem_cons] at hlead hwords
      rw [List.map_cons, List.cons_append, readLines_cons_indent hlead.1 hwords.1,
        ih hlead.2 hwords.2, List.flatMap_cons, List.append_assoc]

/-- The lines of a text as a bullet point are read as the words of the text, if no words follow that
    are not behind a bullet of their own. -/
theorem readLines_append_bulletPoint (cs : List Char) (hlines : (readLines lines).1 = []) :
    readLines ((bulletPoint cs).splitOn '\n' ++ lines) = ([], words cs :: (readLines lines).2) := by
  obtain ⟨first, others, heq, hwraps⟩ := exists_wraps (words cs)
  have htokens : ∀ line ∈ first :: others, ∀ word ∈ line.words, Token word := by
    intro line hline word hword
    have hmem : word ∈ words cs := hwraps.words_eq ▸ List.mem_flatMap.2 ⟨line, hline, hword⟩
    exact token_of_mem_words hmem
  rw [List.forall_mem_cons] at htokens
  rw [splitOn_bulletPoint, heq, List.map_cons, List.cons_append,
    readLines_cons_bullet hwraps.first_lead htokens.1,
    readLines_append_indent hwraps.lead htokens.2, hlines, List.append_nil, ← List.flatMap_cons,
    hwraps.words_eq]

end Wrap

end SigVerdict.Text

namespace SigVerdict.Signature.Rejection

open Text Text.Wrap

/-! ## Bullet points of reasons -/

/-- The words of each reason. -/
def reasonWords (reasons : List String) : List (List (List Char)) :=
  reasons.map fun reason => words reason.toList

/-- Each reason has lines of its own. -/
theorem splitOn_append_bulletPoints (front : List Char) (reasons : List String) :
    (front ++ bulletPoints reasons).splitOn '\n' =
      front.splitOn '\n' ++
        reasons.flatMap fun reason => (bulletPoint reason.toList).splitOn '\n' := by
  induction reasons generalizing front with
  | nil => simp [bulletPoints]
  | cons reason reasons ih =>
      have hcons : bulletPoints (reason :: reasons) =
          '\n' :: (bulletPoint reason.toList ++ bulletPoints reasons) := rfl
      rw [hcons, List.splitOn_append_cons_self, ih, List.flatMap_cons]

theorem readLines_reasons (reasons : List String) :
    readLines (reasons.flatMap fun reason => (bulletPoint reason.toList).splitOn '\n') =
      ([], reasonWords reasons) := by
  induction reasons with
  | nil => rfl
  | cons reason reasons ih =>
      rw [List.flatMap_cons, readLines_append_bulletPoint _ (by rw [ih]), ih]
      rfl

/-- The words of the reasons are read back from their bullet points. -/
theorem readBullets_bulletPoints (reasons : List String) :
    readBullets (bulletPoints reasons) = reasonWords reasons := by
  have hlines := splitOn_append_bulletPoints [] reasons
  rw [List.nil_append, List.splitOn_nil, List.singleton_append] at hlines
  -- nothing stands in front of the first bullet point
  have hfirst : bullet.isPrefixOf? [] = none := rfl
  rw [readBullets, hlines, readLines, hfirst]
  simp only [readLines_reasons]

/-- Bullet points tell the words of the reasons, and nothing else. -/
theorem bulletPoints_inj {reasons reasons' : List String} :
    bulletPoints reasons = bulletPoints reasons' ↔ reasonWords reasons = reasonWords reasons' := by
  have hwords : ∀ reasons, bulletPoints reasons =
      (reasonWords reasons).flatMap fun ws => '\n' :: joinWith ['\n'] (bulletLines ws) := by
    intro reasons
    rw [reasonWords, List.flatMap_map]
    rfl
  constructor
  · intro h
    rw [← readBullets_bulletPoints, h, readBullets_bulletPoints]
  · intro h
    rw [hwords, h, hwords]

/-! ## Reports -/

section

variable {a b : Int} {c : Char} {front stop s t : String}

theorem head?_toList_append (h : s.toList.head? = some c) (t : String) :
    (s ++ t).toList.head? = some c := by
  rw [String.toList_append, List.head?_append, h, Option.some_or]

/-- A numeral and what stands behind it can be told apart by a stop that no numeral holds. -/
theorem append_integerText_inj (hstop : stop.toList.head? = some c) (hminus : c ≠ '-')
    (hdigit : digitValue? c = none) :
    front ++ integerText a ++ stop ++ s = front ++ integerText b ++ stop ++ t ↔ a = b ∧ s = t := by
  obtain ⟨rest, hrest⟩ := List.head?_eq_some_iff.1 hstop
  rw [← String.toList_inj]
  simp only [integerText, String.toList_append, String.toList_ofList, hrest, List.append_assoc,
    List.append_cancel_left_eq, List.cons_append]
  rw [integerDigits_append_inj hminus hdigit, List.append_cancel_left_eq, String.toList_inj]

end

variable {collection : String} {r r' : Rejection} {code code' : Int} {s t : String}

/-- What stands in front of the bullet points in a report. -/
def heading (collection : String) (exitCode : Int) : String :=
  "Signature verification failed for '" ++ collection ++ "' (return code " ++
    integerText exitCode ++ "):"

/-- What stands in front of the status in a report without reasons. -/
def statusHeading (collection : String) (exitCode : Int) : String :=
  "Unexpected error for '" ++ collection ++
    "': GnuPG signature verification failed with the return code " ++ integerText exitCode ++
    " and output "

theorem report_of_reasons (h : r.reasons ≠ []) : r.report collection =
    heading collection r.exitCode ++ String.ofList (bulletPoints r.reasons) := by
  have hreasons : ¬r.reasons.isEmpty = true := by simpa using h
  rw [report, if_neg hreasons]
  rfl

theorem report_of_no_reasons (h : r.reasons = []) :
    r.report collection = statusHeading collection r.exitCode ++ r.statusOutput := by
  have hreasons : r.reasons.isEmpty = true := by simpa using h
  rw [report, if_pos hreasons]
  rfl

theorem heading_append_inj :
    heading collection code ++ s = heading collection code' ++ t ↔ code = code' ∧ s = t :=
  append_integerText_inj (by decide : _ = some ')') (by decide) (by decide)

theorem statusHeading_append_inj :
    statusHeading collection code ++ s = statusHeading collection code' ++ t ↔
      code = code' ∧ s = t :=
  append_integerText_inj (by decide : _ = some ' ') (by decide) (by decide)

/-- A report with reasons and one without never are the same, whatever they are about. -/
theorem report_ne_of_reasons (h : r.reasons ≠ []) (h' : r'.reasons = [])
    (collection collection' : String) : r.report collection ≠ r'.report collection' := by
  have hhead : (r.report collection).toList.head? = some 'S' := by
    rw [report_of_reasons h]
    iterate 5 refine head?_toList_append ?_ _
    decide
  have hhead' : (r'.report collection').toList.head? = some 'U' := by
    rw [report_of_no_reasons h']
    iterate 5 refine head?_toList_append ?_ _
    decide
  intro heq
  rw [heq, hhead'] at hhead
  exact absurd hhead (by decide)

/-- **A report tells all but white space.** Two reports about a collection are the same just when
    the exit codes are the same, and either neither has reasons and the statuses are the same, or
    both have reasons and these, in the order in which they are kept, have the same words. Behind
    the heading the words of each reason can be read, whatever the reasons say; and a report that
    has reasons is never taken for one that has none. -/
theorem report_eq_iff (collection : String) (r r' : Rejection) :
    (r.report collection = r'.report collection ↔
      r.exitCode = r'.exitCode ∧
        ((r.reasons = [] ∧ r'.reasons = [] ∧ r.statusOutput = r'.statusOutput) ∨
          (r.reasons ≠ [] ∧ r'.reasons ≠ [] ∧ reasonWords r.reasons = reasonWords r'.reasons))) ∧
    (r.reasons ≠ [] → ∃ body,
      r.report collection = heading collection r.exitCode ++ String.ofList body ∧
        readBullets body = reasonWords r.reasons) ∧
    (r.reasons ≠ [] → r'.reasons = [] →
      ∀ collection', r.report collection ≠ r'.report collection') := by
  refine ⟨?_, ?_, fun h h' => report_ne_of_reasons h h' collection⟩
  · by_cases h : r.reasons = []
    · by_cases h' : r'.reasons = []
      · rw [report_of_no_reasons h, report_of_no_reasons h', statusHeading_append_inj]
        simp [h, h']
      · have hne := (report_ne_of_reasons h' h collection collection).symm
        simp [h, h', hne]
    · by_cases h' : r'.reasons = []
      · have hne := report_ne_of_reasons h h' collection collection
        simp [h, h', hne]
      · rw [report_of_reasons h, report_of_reasons h', heading_append_inj, String.ofList_inj,
          bulletPoints_inj]
        simp [h, h']
  · intro h
    exact ⟨_, report_of_reasons h, readBullets_bulletPoints r.reasons⟩

/-- A reason that looks like two bullet points is read as one, and is not taken for two reasons, nor
    for a status that looks like it. -/
theorem report_eq_iff_forged :
    (∃ body, (⟨["a\n    * b"], "", 2, false⟩ : Rejection).report "c" =
        heading "c" 2 ++ String.ofList body ∧
      readBullets body = [["a".toList, "*".toList, "b".toList]]) ∧
    (⟨["a\n    * b"], "", 2, false⟩ : Rejection).report "c" ≠
      (⟨["a", "b"], "", 2, false⟩ : Rejection).report "c" ∧
    (⟨["a\n    * b"], "", 2, false⟩ : Rejection).report "c" ≠
      (⟨[], "a\n    * b", 2, false⟩ : Rejection).report "c" := by
  obtain ⟨hiff, hread, -⟩ :=
    report_eq_iff "c" ⟨["a\n    * b"], "", 2, false⟩ ⟨["a", "b"], "", 2, false⟩
  obtain ⟨-, -, hnone⟩ :=
    report_eq_iff "c" ⟨["a\n    * b"], "", 2, false⟩ ⟨[], "a\n    * b", 2, false⟩
  refine ⟨?_, ?_, hnone (by decide) rfl "c"⟩
  · obtain ⟨body, hbody, hwords⟩ := hread (by decide)
    exact ⟨body, hbody, hwords.trans (by decide)⟩
  · rw [ne_eq, hiff]
    decide

end SigVerdict.Signature.Rejection
