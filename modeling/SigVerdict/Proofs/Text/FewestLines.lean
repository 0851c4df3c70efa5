import SigVerdict.Proofs.Text.Wrap

set_option autoImplicit false

/-! # The fewest lines

The words of a bullet point can be put onto lines in many ways (`Cut`), and a bullet point takes one
of those with the fewest lines (`bulletPoint_fewest`).

To see this, both ways of placing the words are followed from word to word (`length_layOut_le`). As
long as the bullet point is on the same line as the other way, it started this line no earlier, so
that it has room for every word that the other way puts there. Once it has put a word onto its line
that starts a new line elsewhere, it is a line ahead. Then it may end its line early, and is on the
same line as the other way again. -/

namespace SigVerdict.Text.Wrap

/-- Words that can stand on a line, behind a start of six octets. A single word always can. -/
def Narrow (group : List (List Char)) : Prop :=
  2 ≤ group.length → 6 + Utf8.size (joinWith [' '] group) ≤ 70

/-- Words in their order, cut into groups that can stand on lines. -/
structure Cut (ws : List (List Char)) (groups : List (List (List Char))) : Prop where
  words_eq : groups.flatten = ws
  ne_nil : ∀ group ∈ groups, group ≠ []
  narrow : ∀ group ∈ groups, Narrow group

variable {word : List Char} {ws part rest : List (List Char)} {groups : List (List (List Char))}
  {first line : Line} {others : List Line}

/-! ## Groups of words -/

theorem Narrow.tail (h : Narrow (word :: part)) : Narrow part := by
  intro hlength
  cases part with
  | nil => simp at hlength
  | cons next part =>
      have hall := h (by simp)
      rw [joinWith, Utf8.size_append] at hall
      omega

/-- The first word stands in the first group. -/
theorem Cut.exists_of_cons (h : Cut (word :: ws) groups) :
    ∃ part rest others, ws = part ++ rest ∧ groups = (word :: part) :: others ∧
      Narrow (word :: part) ∧ Cut rest others := by
  obtain ⟨hwords, hne, hnarrow⟩ := h
  cases groups with
  | nil => cases hwords
  | cons group others =>
      rw [List.forall_mem_cons] at hne hnarrow
      cases group with
      | nil => exact absurd rfl hne.1
      | cons first part =>
          simp only [List.flatten_cons, List.cons_append, List.cons.injEq] at hwords
          obtain ⟨rfl, rfl⟩ := hwords
          exact ⟨part, others.flatten, others, rfl, rfl, hnarrow.1, rfl, hne.2, hnarrow.2⟩

/-! ## Lines -/

/-- An open line has room for a word if a line can hold both, and maybe more. -/
theorem Line.room_of_narrow (hlead : Utf8.size line.lead = 6) (hne : line.words ≠ [])
    (h : Narrow (line.words ++ word :: part)) :
    Utf8.size line.text + 1 + Utf8.size word ≤ width := by
  have hpos := List.length_pos_iff.2 hne
  have hroom := h (by simp; omega)
  rw [joinWith_append hne (List.cons_ne_nil word part)] at hroom
  simp only [Utf8.size_append, Utf8.size_cons, Utf8.size_nil] at hroom
  have hword : Utf8.size word ≤ Utf8.size (joinWith [' '] (word :: part)) := by
    cases part with
    | nil => exact Nat.le_refl _
    | cons next part => simp [joinWith]
  have hspace : ' '.utf8Size = 1 := rfl
  rw [Line.text, Utf8.size_append, hlead]
  show _ ≤ 70
  omega

theorem Line.narrow_of_fits (hlead : Utf8.size line.lead = 6) (h : line.Fits) :
    Narrow line.words := by
  intro hlength
  by_contra hwide
  have hone := h (by rw [Line.text, Utf8.size_append]; omega)
  omega

/-- Let the words behind an open line be cut in another way, into what still goes onto a line and
    the groups on the lines after that one. Then they need at most one line more here, and no line
    more if that line could hold the words of the open line in front. -/
theorem length_layOut_le (line : Line) (hlead : Utf8.size line.lead = 6) (hne : line.words ≠ [])
    (hws : ws = part ++ rest) (hpart : Narrow part) (hcut : Cut rest groups) :
    (layOut line ws).length ≤ groups.length + 2 ∧
      (Narrow (line.words ++ part) → (layOut line ws).length ≤ groups.length + 1) := by
  induction ws generalizing line part rest groups with
  | nil => simp [layOut]
  | cons word ws ih =>
      have hfresh := List.cons_ne_nil word []
      have hpush := line.words_push_ne_nil word
      cases part with
      | nil =>
          -- the other way starts a line with the word
          rw [List.nil_append] at hws
          subst hws
          obtain ⟨part, rest, groups, rfl, rfl, hnarrow, hcut⟩ := hcut.exists_of_cons
          have hsame := (ih ⟨indent, [word]⟩ rfl hfresh rfl hnarrow.tail hcut).2 hnarrow
          have hahead := (ih (line.push word) hlead hpush rfl hnarrow.tail hcut).1
          rw [layOut]
          split <;> simp only [List.length_cons] <;> omega
      | cons first part =>
          -- the other way goes on with its line
          obtain ⟨rfl, rfl⟩ := List.cons.inj hws
          have hsame := (ih ⟨indent, [word]⟩ rfl hfresh rfl hpart.tail hcut).2 hpart
          obtain ⟨hlate, hroom⟩ := ih (line.push word) hlead hpush rfl hpart.tail hcut
          rw [layOut]
          split
          · next hfull =>
              simp only [List.length_cons]
              refine ⟨by omega, fun hnarrow => ?_⟩
              have htakes := Line.room_of_narrow hlead hne hnarrow
              omega
          · refine ⟨hlate, fun hnarrow => hroom ?_⟩
            simpa [Line.push] using hnarrow

/-! ## Bullet points -/

theorem length_layOutBullet_le (hne : ws ≠ []) (h : Cut ws groups) :
    (layOutBullet ws).length ≤ groups.length := by
  cases ws with
  | nil => exact absurd rfl hne
  | cons word ws =>
      obtain ⟨part, rest, groups, rfl, rfl, hnarrow, hcut⟩ := h.exists_of_cons
      exact (length_layOut_le ⟨bullet, [word]⟩ rfl (List.cons_ne_nil word []) rfl hnarrow.tail
        hcut).2 hnarrow

/-- The lines of words, if there are any, are one way to cut them. -/
theorem Wraps.cut (h : Wraps ws first others) (hne : ws ≠ []) :
    Cut ws ((first :: others).map Line.words) := by
  refine ⟨h.words_eq, ?_, ?_⟩
  · rw [List.forall_mem_map]
    intro line hline
    rcases List.mem_cons.1 hline with rfl | hline
    · exact fun hnil => hne (h.empty hnil).1
    · exact h.words_ne_nil line hline
  · rw [List.forall_mem_map]
    intro line hline
    refine Line.narrow_of_fits ?_ (h.fits line hline)
    rcases List.mem_cons.1 hline with rfl | hline
    · rw [h.first_lead]
      rfl
    · rw [h.lead line hline]
      rfl

/-- **A bullet point has the fewest lines.** Its lines cut the words of a text, if it has any, into
    groups of which those with several words take at most 70 octets with the six in front; and there
    is no way to cut the words into fewer such groups. -/
theorem bulletPoint_fewest (cs : List Char) (hne : words cs ≠ []) :
    ∃ first others, (bulletPoint cs).splitOn '\n' = (first :: others).map Line.text ∧
      first.lead = "    * ".toList ∧ (∀ line ∈ others, line.lead = "      ".toList) ∧
      Cut (words cs) ((first :: others).map Line.words) ∧
      ∀ groups, Cut (words cs) groups →
        ((bulletPoint cs).splitOn '\n').length ≤ groups.length := by
  obtain ⟨first, others, heq, hwraps⟩ := exists_wraps (words cs)
  refine ⟨first, others, ?_, hwraps.first_lead, hwraps.lead, hwraps.cut hne, ?_⟩
  · rw [splitOn_bulletPoint, heq]
  · intro groups hcut
    rw [splitOn_bulletPoint, List.length_map]
    exact length_layOutBullet_le hne hcut

/-- A word that is longer than a line stands alone, so that two lines are not enough. -/
theorem bulletPoint_fewest_longWord :
    words ("a ".toList ++ List.replicate 71 'b' ++ " c".toList) ≠ [] ∧
      ∀ groups, Cut (words ("a ".toList ++ List.replicate 71 'b' ++ " c".toList)) groups →
        3 ≤ groups.length := by
  have hne : words ("a ".toList ++ List.replicate 71 'b' ++ " c".toList) ≠ [] := by decide
  refine ⟨hne, fun groups hcut => ?_⟩
  obtain ⟨-, -, -, -, -, -, hfewest⟩ := bulletPoint_fewest _ hne
  exact Nat.le_trans (by decide) (hfewest groups hcut)

end SigVerdict.Text.Wrap
