import Mathlib.Data.List.Chain
import SigVerdict.Proofs.Text.Token
import SigVerdict.Text.Wrap

set_option autoImplicit false

/-! # The lines of a bullet point

A bullet point is written character by character, while its lines are described by the words that
stand on them (`Line`, `layOut`). No word holds a line feed, and so the text is divided into just
these lines at its line feeds (`bulletLines_eq`, `Wraps.lineFeed_not_mem`).

The words are all there and in their order (`flatMap_words_layOut`). A line is too long only when it
is a single word (`fits_layOut`), and it is ended only when the next word does not go onto it
(`isChain_layOut`). -/

namespace SigVerdict.Text

/-! ## Joined parts -/

section Join

variable {sep : List Char} {parts : List (List Char)}

theorem joinWith_eq_intercalate : joinWith sep parts = sep.intercalate parts := by
  induction parts with
  | nil => rfl
  | cons part parts ih =>
      cases parts with
      | nil => simp [joinWith]
      | cons next parts => rw [joinWith, ih, List.intercalate_cons_cons]

theorem mem_joinWith {c : Char} (h : c ∈ joinWith sep parts) :
    c ∈ sep ∨ ∃ part ∈ parts, c ∈ part := by
  induction parts with
  | nil => cases h
  | cons part parts ih =>
      cases parts with
      | nil => exact Or.inr ⟨part, List.mem_singleton_self part, h⟩
      | cons next parts =>
          rw [joinWith, List.mem_append, List.mem_append] at h
          rcases h with (h | h) | h
          · exact Or.inr ⟨part, List.mem_cons_self, h⟩
          · exact Or.inl h
          · rcases ih h with hsep | ⟨other, hother, hc⟩
            · exact Or.inl hsep
            · exact Or.inr ⟨other, List.mem_cons_of_mem _ hother, hc⟩

/-- Between two rows of parts there is one more separator. -/
theorem joinWith_append {others : List (List Char)} (hne : parts ≠ []) (hothers : others ≠ []) :
    joinWith sep (parts ++ others) = joinWith sep parts ++ sep ++ joinWith sep others := by
  induction parts with
  | nil => exact absurd rfl hne
  | cons first parts ih =>
      cases parts with
      | nil =>
          obtain ⟨other, others, rfl⟩ := List.exists_cons_of_ne_nil hothers
          rfl
      | cons next parts =>
          have hrest := ih (List.cons_ne_nil next parts)
          simp only [List.cons_append, joinWith] at hrest ⊢
          rw [hrest]
          simp only [List.append_assoc]

end Join

namespace Wrap

/-! ## Lines -/

/-- A line of a bullet point: what it starts with, and the words behind that. -/
structure Line where
  lead : List Char
  words : List (List Char)

namespace Line

/-- A line as it is written, with single spaces between its words. -/
def text (line : Line) : List Char := line.lead ++ joinWith [' '] line.words

/-- A line with a further word. -/
def push (line : Line) (word : List Char) : Line := ⟨line.lead, line.words ++ [word]⟩

theorem words_push_ne_nil (line : Line) (word : List Char) : (line.push word).words ≠ [] :=
  List.append_ne_nil_of_right_ne_nil _ (List.cons_ne_nil word [])

theorem text_push {line : Line} (hne : line.words ≠ []) (word : List Char) :
    (line.push word).text = line.text ++ ' ' :: word := by
  rw [text, push, joinWith_append hne (List.cons_ne_nil word []), text]
  simp [joinWith]

/-- A line of more than 70 octets holds a single word. -/
def Fits (line : Line) : Prop := 70 < Utf8.size line.text → line.words.length = 1

/-- With a space and the first word of the next line, this one would have more than 70 octets. -/
def FullFor (line next : Line) : Prop :=
  ∀ word, next.words.head? = some word → 70 < Utf8.size line.text + 1 + Utf8.size word

end Line

/-- The lines of the words behind an open line. -/
def layOut (line : Line) : List (List Char) → List Line
  | [] => [line]
  | word :: rest =>
    if width < Utf8.size line.text + 1 + Utf8.size word then line :: layOut ⟨indent, [word]⟩ rest
    else layOut (line.push word) rest

/-! ## Lines of characters and lines of words -/

/-- What is written is how the lines of the words are written. -/
theorem linesAfter_eq (line : Line) (hne : line.words ≠ []) (ws : List (List Char)) :
    linesAfter line.text ws = (layOut line ws).map Line.text := by
  induction ws generalizing line with
  | nil => rfl
  | cons word rest ih =>
      rw [linesAfter, layOut]
      split
      · rw [List.map_cons, ← ih _ (List.cons_ne_nil word [])]
        rfl
      · rw [← ih _ (line.words_push_ne_nil word), Line.text_push hne]

/-! ## The words on the lines -/

/-- No word is lost, and none comes in between. -/
theorem flatMap_words_layOut (line : Line) (ws : List (List Char)) :
    (layOut line ws).flatMap Line.words = line.words ++ ws := by
  induction ws generalizing line with
  | nil => simp [layOut]
  | cons word rest ih =>
      rw [layOut]
      split
      · rw [List.flatMap_cons, ih, List.singleton_append]
      · rw [ih, Line.push, List.append_assoc, List.singleton_append]

/-- The open line takes some words, and the others stand on lines with the indent. -/
theorem exists_layOut_eq_cons (line : Line) (ws : List (List Char)) :
    ∃ more others, layOut line ws = ⟨line.lead, line.words ++ more⟩ :: others ∧
      ∀ other ∈ others, other.lead = indent ∧ other.words ≠ [] := by
  induction ws generalizing line with
  | nil => exact ⟨[], [], by rw [layOut, List.append_nil], List.forall_mem_nil _⟩
  | cons word rest ih =>
      rw [layOut]
      split
      · obtain ⟨more, others, heq, hothers⟩ := ih ⟨indent, [word]⟩
        refine ⟨[], layOut ⟨indent, [word]⟩ rest, by rw [List.append_nil], ?_⟩
        rw [heq]
        exact List.forall_mem_cons.2 ⟨⟨rfl, List.cons_ne_nil word more⟩, hothers⟩
      · obtain ⟨more, others, heq, hothers⟩ := ih (line.push word)
        refine ⟨word :: more, others, ?_, hothers⟩
        rw [heq, Line.push, List.append_assoc, List.singleton_append]

theorem fits_layOut (line : Line) (hfits : line.Fits) (hne : line.words ≠ [])
    (ws : List (List Char)) : ∀ other ∈ layOut line ws, other.Fits := by
  induction ws generalizing line with
  | nil => exact List.forall_mem_singleton.2 hfits
  | cons word rest ih =>
      rw [layOut]
      split
      · exact List.forall_mem_cons.2 ⟨hfits, ih _ (fun _ => rfl) (List.cons_ne_nil word [])⟩
      · next hroom =>
          refine ih _ ?_ (line.words_push_ne_nil word)
          -- the line takes the word only when it does not get too long
          intro hlong
          rw [Line.text_push hne, Utf8.size_append, Utf8.size_cons] at hlong
          have hspace : ' '.utf8Size = 1 := rfl
          have hwidth : width = 70 := rfl
          omega

theorem isChain_layOut (line : Line) (ws : List (List Char)) :
    (layOut line ws).IsChain Line.FullFor := by
  induction ws generalizing line with
  | nil => exact .singleton line
  | cons word rest ih =>
      rw [layOut]
      split
      · next hfull =>
          have hrest := ih ⟨indent, [word]⟩
          obtain ⟨more, others, heq, -⟩ := exists_layOut_eq_cons ⟨indent, [word]⟩ rest
          rw [heq] at hrest ⊢
          refine List.isChain_cons_cons.2 ⟨?_, hrest⟩
          rintro other ⟨⟩
          exact hfull
      · exact ih (line.push word)

/-! ## Bullet points -/

/-- The lines of a bullet point with these words. -/
def layOutBullet : List (List Char) → List Line
  | [] => [⟨bullet, []⟩]
  | word :: rest => layOut ⟨bullet, [word]⟩ rest

theorem bulletLines_eq (ws : List (List Char)) :
    bulletLines ws = (layOutBullet ws).map Line.text := by
  cases ws with
  | nil => rfl
  | cons word rest => exact linesAfter_eq ⟨bullet, [word]⟩ (List.cons_ne_nil word []) rest

/-- Lines hold these words, as many on each line as go onto it. The first line is without words only
    when there are none at all. -/
structure Wraps (ws : List (List Char)) (first : Line) (others : List Line) : Prop where
  first_lead : first.lead = "    * ".toList
  lead : ∀ line ∈ others, line.lead = "      ".toList
  words_ne_nil : ∀ line ∈ others, line.words ≠ []
  empty : first.words = [] → ws = [] ∧ others = []
  words_eq : (first :: others).flatMap Line.words = ws
  fits : ∀ line ∈ first :: others, line.Fits
  full : (first :: others).IsChain Line.FullFor

theorem exists_wraps (ws : List (List Char)) :
    ∃ first others, layOutBullet ws = first :: others ∧ Wraps ws first others := by
  cases ws with
  | nil =>
      have hshort : (Line.mk bullet []).Fits := fun hlong => absurd hlong (by decide)
      exact ⟨⟨bullet, []⟩, [], rfl, rfl, List.forall_mem_nil _, List.forall_mem_nil _,
        fun _ => ⟨rfl, rfl⟩, rfl, List.forall_mem_singleton.2 hshort, .singleton _⟩
  | cons word rest =>
      have hwords := flatMap_words_layOut ⟨bullet, [word]⟩ rest
      have hfits := fits_layOut ⟨bullet, [word]⟩ (fun _ => rfl) (List.cons_ne_nil word []) rest
      have hfull := isChain_layOut ⟨bullet, [word]⟩ rest
      obtain ⟨more, others, heq, hothers⟩ := exists_layOut_eq_cons ⟨bullet, [word]⟩ rest
      rw [heq] at hwords hfits hfull
      refine ⟨_, others, heq, rfl, ?_, ?_, ?_, hwords, hfits, hfull⟩
      · intro line hline
        exact (hothers line hline).1
      · intro line hline
        exact (hothers line hline).2
      · intro hnil
        cases hnil

/-! ## The text of a bullet point -/

/-- The lines of tokens are without line feeds. -/
theorem Wraps.lineFeed_not_mem {ws : List (List Char)} {first line : Line} {others : List Line}
    (h : Wraps ws first others) (htokens : ∀ word ∈ ws, Token word)
    (hline : line ∈ first :: others) : '\n' ∉ line.text := by
  intro hmem
  rcases List.mem_append.1 hmem with hlead | hwords
  · rcases List.mem_cons.1 hline with rfl | hline
    · rw [h.first_lead] at hlead
      exact absurd hlead (by decide)
    · rw [h.lead line hline] at hlead
      exact absurd hlead (by decide)
  · rcases mem_joinWith hwords with hspace | ⟨word, hword, hc⟩
    · exact absurd hspace (by decide)
    · have htoken := htokens word (h.words_eq ▸ List.mem_flatMap.2 ⟨line, hline, hword⟩)
      exact lineFeed_not_mem_token htoken hc

/-- A text as a bullet point is divided at its line feeds into the lines of its words. -/
theorem splitOn_bulletPoint (cs : List Char) :
    (bulletPoint cs).splitOn '\n' = (layOutBullet (words cs)).map Line.text := by
  obtain ⟨first, others, heq, hwraps⟩ := exists_wraps (words cs)
  rw [bulletPoint, bulletLines_eq, heq, joinWith_eq_intercalate]
  refine List.splitOn_intercalate '\n' ?_ (List.cons_ne_nil _ _)
  intro text htext
  obtain ⟨line, hline, rfl⟩ := List.mem_map.1 htext
  exact hwraps.lineFeed_not_mem (fun _ => token_of_mem_words) hline

/-- **A bullet point wraps its words.** Divided at the line feeds, it gives lines that hold the
    words of the text in their order, with as many on each line as go onto it. Nothing but the words
    matters. -/
theorem bulletPoint_wraps (cs : List Char) :
    (∃ first others, (bulletPoint cs).splitOn '\n' = (first :: others).map Line.text ∧
      Wraps (words cs) first others) ∧
    ∀ other, words other = words cs → bulletPoint other = bulletPoint cs := by
  constructor
  · obtain ⟨first, others, heq, hwraps⟩ := exists_wraps (words cs)
    refine ⟨first, others, ?_, hwraps⟩
    rw [splitOn_bulletPoint, heq]
  · intro other hwords
    rw [bulletPoint, bulletPoint, hwords]

/-- Blanks in front, behind and between the words make no difference. -/
theorem bulletPoint_wraps_blanks :
    words "\tkey  expired\n".toList = words "key expired".toList ∧
      bulletPoint "\tkey  expired\n".toList = bulletPoint "key expired".toList := by
  have hwords : words "\tkey  expired\n".toList = words "key expired".toList := by decide
  exact ⟨hwords, (bulletPoint_wraps "key expired".toList).2 _ hwords⟩

end Wrap

end SigVerdict.Text
