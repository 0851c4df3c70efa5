import SigVerdict.Proofs.Text.Token

set_option autoImplicit false

/-! # What a text is cut into

Cutting a text into pieces takes the text from the front, one piece in each round, until nothing is
left or until a piece has taken all of it. Every round takes a piece, so that there are as many
rounds as pieces (`Cutting.endsAfter_pieces`).

A text is not changed by this: the pieces stand in it as they are, and what is left out is blank
(`Layout`). There may be blanks in front of the first piece and behind the last, and there are some
between each two; but a `k`-th piece reaches to the end of the text (`Layout.IsCut`). For a text
that is not blank there is such a layout (`Layout.exists_isCut`), and its parts can only be the
pieces (`Layout.IsCut.pieces_eq`). -/

namespace SigVerdict.Text

variable {k n : Nat} {cs lead token behind rest tail last : List Char}

/-! ## Cutting in rounds -/

/-- A text that is being cut: the pieces so far, and what is left of the text. -/
structure Cutting where
  done : List (List Char)
  left : List Char

namespace Cutting

/-- Nothing is cut off the text yet but the blanks in front. -/
def start (cs : List Char) : Cutting := ⟨[], trimStart cs⟩

/-- One round cuts off what stands in front of the next blank, and the blanks after that. The round
    for the `k`-th piece takes all that is left. -/
def round (k : Nat) (s : Cutting) : Cutting :=
  if s.done.length + 1 = k then ⟨s.done ++ [s.left], []⟩
  else ⟨s.done ++ [s.left.takeWhile (!isBlank ·)], trimStart (s.left.dropWhile (!isBlank ·))⟩

/-- Going on for as long as something is left ends after so many rounds, with these pieces. -/
inductive EndsAfter (k : Nat) : Cutting → Nat → List (List Char) → Prop where
  | done {parts : List (List Char)} : EndsAfter k ⟨parts, []⟩ 0 parts
  | round {s : Cutting} {n : Nat} {parts : List (List Char)} (hleft : s.left ≠ [])
      (hrest : EndsAfter k (s.round k) n parts) : EndsAfter k s (n + 1) parts

theorem round_last {done : List (List Char)} (h : done.length + 1 = k) (left : List Char) :
    (Cutting.mk done left).round k = ⟨done ++ [left], []⟩ :=
  if_pos h

/-- A round that is not the last one that is allowed cuts a token off. -/
theorem round_token {done : List (List Char)} (h : done.length + 1 ≠ k) (htoken : Token token)
    (hbehind : Boundary behind) :
    (Cutting.mk done (token ++ behind)).round k = ⟨done ++ [token], trimStart behind⟩ := by
  rw [round, if_neg h, takeWhile_token_append htoken hbehind,
    dropWhile_token_append htoken hbehind]

/-- When only blanks are left there is no further round. -/
theorem endsAfter_of_blank (h : Blank cs) (n : Nat) (done : List (List Char)) :
    EndsAfter k ⟨done, trimStart cs⟩ (pieces n cs).length (done ++ pieces n cs) := by
  rw [trimStart_of_blank h, pieces_of_blank h, List.append_nil]
  exact .done

/-- With some pieces done and `n + 1` more allowed, the rounds add the pieces of what is left, one
    in each round. -/
theorem endsAfter_pieces (n : Nat) (done : List (List Char)) (cs : List Char) :
    EndsAfter (done.length + (n + 1)) ⟨done, trimStart cs⟩ (pieces (n + 1) cs).length
      (done ++ pieces (n + 1) cs) := by
  induction n generalizing done cs with
  | zero =>
      rcases blank_or_token cs with hblank | ⟨lead, token, behind, rfl, hlead, htoken, -⟩
      · exact endsAfter_of_blank hblank _ done
      · have hopens : Opens (token ++ behind) := htoken.phrase.opens.append behind
        rw [trimStart_append_of_blank hlead, trimStart_of_opens hopens,
          pieces_append_of_blank hlead, pieces_one hopens]
        refine .round hopens.ne_nil ?_
        rw [round_last rfl]
        exact .done
  | succ n ih =>
      rcases blank_or_token cs with hblank | ⟨lead, token, behind, rfl, hlead, htoken, hbehind⟩
      · exact endsAfter_of_blank hblank _ done
      · have hopens : Opens (token ++ behind) := htoken.phrase.opens.append behind
        rw [trimStart_append_of_blank hlead, trimStart_of_opens hopens,
          pieces_append_of_blank hlead, pieces_append_token htoken hbehind, List.length_cons]
        refine .round hopens.ne_nil ?_
        rw [round_token (by omega) htoken hbehind]
        -- the token counts as done from here on
        have hrest := ih (done ++ [token]) behind
        rw [List.length_append, List.length_singleton, List.append_assoc,
          List.singleton_append] at hrest
        rwa [show done.length + (n + 1 + 1) = done.length + 1 + (n + 1) by omega]

end Cutting

/-! ## Layouts -/

/-- A text as it is made of parts: what stands in front of the first part, this part, all further
    parts with what stands in front of each of them, and what stands behind the last. -/
structure Layout where
  lead : List Char
  first : List Char
  others : List (List Char × List Char)
  tail : List Char

namespace Layout

/-- All that a layout holds, one behind the other. -/
def text (l : Layout) : List Char :=
  l.lead ++ (l.first ++ (l.others.flatMap (fun (gap, part) => gap ++ part) ++ l.tail))

/-- The parts of a layout, in order. -/
def parts (l : Layout) : List (List Char) := l.first :: l.others.map Prod.snd

/-- A layout with a further part in front. -/
def after (l : Layout) (lead token : List Char) : Layout :=
  ⟨lead, token, (l.lead, l.first) :: l.others, l.tail⟩

/-- The parts are what a text is cut into at its blanks, at most `k` of them. The `k`-th one may
    hold blanks, as it is all that is left, and no other one does. -/
structure IsCut (k : Nat) (l : Layout) : Prop where
  lead : Blank l.lead
  gap : ∀ other ∈ l.others, Gap other.1
  tail : Blank l.tail
  opens : ∀ part ∈ l.parts, Opens part
  token : ∀ i part, l.parts[i]? = some part → i + 1 ≠ k → Token part
  length_le : l.parts.length ≤ k
  length_lt : l.tail ≠ [] → l.parts.length < k

variable {l : Layout}

theorem text_after (l : Layout) (lead token : List Char) :
    (l.after lead token).text = lead ++ (token ++ l.text) := by
  simp [text, after]

theorem parts_after (l : Layout) (lead token : List Char) :
    (l.after lead token).parts = token :: l.parts := rfl

/-- A single part that is all that is left of a text. -/
theorem isCut_rest (hlead : Blank lead) (hrest : Opens rest) : IsCut 1 ⟨lead, rest, [], []⟩ where
  lead := hlead
  gap := List.forall_mem_nil _
  tail := blank_nil
  opens := List.forall_mem_singleton.2 hrest
  token i part hpart hi := by
    obtain ⟨hlt, -⟩ := List.getElem?_eq_some_iff.1 hpart
    exact absurd (Nat.lt_one_iff.1 hlt) (by omega)
  length_le := Nat.le_refl 1
  length_lt hne := absurd rfl hne

/-- A single part where more of them are allowed. -/
theorem isCut_last (k : Nat) (hlead : Blank lead) (htoken : Token token) (htail : Blank tail) :
    IsCut (k + 2) ⟨lead, token, [], tail⟩ where
  lead := hlead
  gap := List.forall_mem_nil _
  tail := htail
  opens := List.forall_mem_singleton.2 htoken.phrase.opens
  token i part hpart _ := by
    rw [List.mem_singleton.1 (List.mem_of_getElem? hpart)]
    exact htoken
  length_le := Nat.le_add_left 1 (k + 1)
  length_lt _ := Nat.lt_add_left k (Nat.lt_succ_self 1)

/-- One more part in front is a token, and there is a gap behind it. -/
theorem isCut_after_iff :
    (l.after lead token).IsCut (k + 2) ↔
      Blank lead ∧ Token token ∧ Gap l.lead ∧ l.IsCut (k + 1) := by
  constructor
  · rintro ⟨hlead, hgap, htail, hopens, htoken, hle, hlt⟩
    rw [parts_after, List.forall_mem_cons] at hopens
    rw [parts_after, List.length_cons] at hle hlt
    obtain ⟨hfirst, hgap⟩ := List.forall_mem_cons.1 hgap
    refine ⟨hlead, htoken 0 token rfl (by omega), hfirst, hfirst.2, hgap, htail, hopens.2, ?_,
      by omega, fun hne => Nat.lt_of_succ_lt_succ (hlt hne)⟩
    intro i part hpart hi
    exact htoken (i + 1) part hpart (by omega)
  · rintro ⟨hlead, htoken, hgap, hcut⟩
    refine ⟨hlead, List.forall_mem_cons.2 ⟨hgap, hcut.gap⟩, hcut.tail,
      List.forall_mem_cons.2 ⟨htoken.phrase.opens, hcut.opens⟩, ?_,
      Nat.succ_le_succ hcut.length_le, fun htail => Nat.succ_lt_succ (hcut.length_lt htail)⟩
    intro i part hpart hi
    cases i with
    | zero =>
        cases hpart
        exact htoken
    | succ i => exact hcut.token i part hpart (by omega)

/-- The parts of a text that is cut are its pieces. -/
theorem IsCut.pieces_eq (h : l.IsCut k) : pieces k l.text = l.parts := by
  obtain ⟨lead, first, others, tail⟩ := l
  have hk : 0 < k := Nat.lt_of_lt_of_le (Nat.succ_pos _) h.length_le
  obtain ⟨k, rfl⟩ := Nat.exists_eq_succ_of_ne_zero hk.ne'
  induction others generalizing k lead first with
  | nil =>
      have hopens : Opens first := h.opens first List.mem_cons_self
      simp only [text, List.flatMap_nil, List.nil_append, pieces_append_of_blank h.lead]
      cases k with
      | zero =>
          have htail : tail = [] := by
            by_contra hne
            exact Nat.lt_irrefl 1 (h.length_lt hne)
          rw [htail, List.append_nil, pieces_one hopens]
          rfl
      | succ k =>
          have htoken := h.token 0 first rfl (by omega)
          rw [pieces_append_token htoken h.tail.boundary, pieces_of_blank h.tail]
          rfl
  | cons other others ih =>
      obtain ⟨gap, part⟩ := other
      cases k with
      | zero => exact absurd h.length_le (by simp [parts])
      | succ k =>
          change ((Layout.mk gap part others tail).after lead first).IsCut (k + 2) at h
          obtain ⟨hlead, htoken, hgap, hcut⟩ := isCut_after_iff.1 h
          have hbehind : Boundary (Layout.mk gap part others tail).text := hgap.boundary _
          have hrest := ih gap part k hcut (Nat.succ_pos k)
          change pieces (k + 2) ((Layout.mk gap part others tail).after lead first).text = _
          rw [text_after, pieces_append_of_blank hlead, pieces_append_token htoken hbehind, hrest]
          rfl

/-- Every text that is not blank can be cut. -/
theorem exists_isCut (n : Nat) (hcs : ¬Blank cs) : ∃ l : Layout, l.text = cs ∧ l.IsCut (n + 1) := by
  induction n generalizing cs with
  | zero =>
      rcases blank_or_opens cs with hblank | ⟨lead, rest, rfl, hlead, hopens⟩
      · exact absurd hblank hcs
      · exact ⟨⟨lead, rest, [], []⟩, by simp [text], isCut_rest hlead hopens⟩
  | succ n ih =>
      rcases blank_or_token cs with hblank | ⟨lead, token, behind, rfl, hlead, htoken, hbehind⟩
      · exact absurd hblank hcs
      · by_cases hblank : Blank behind
        · exact ⟨⟨lead, token, [], behind⟩, by simp [text], isCut_last n hlead htoken hblank⟩
        · obtain ⟨l, rfl, hcut⟩ := ih hblank
          have hopens : Opens l.first := hcut.opens l.first List.mem_cons_self
          have hgap : Gap l.lead := hbehind.gap_of_opens hcut.lead (hopens.append _)
          exact ⟨l.after lead token, l.text_after lead token,
            isCut_after_iff.2 ⟨hlead, htoken, hgap, hcut⟩⟩

end Layout

/-! ## The pieces of a text -/

theorem pieces_eq_nil_iff : pieces k cs = [] ↔ k = 0 ∨ Blank cs := by
  constructor
  · intro hnil
    by_contra hnot
    obtain ⟨hk, hcs⟩ := not_or.1 hnot
    obtain ⟨n, rfl⟩ := Nat.exists_eq_succ_of_ne_zero hk
    obtain ⟨l, rfl, hcut⟩ := Layout.exists_isCut n hcs
    rw [hcut.pieces_eq] at hnil
    exact List.cons_ne_nil _ _ hnil
  · rintro (rfl | hblank)
    · rfl
    · exact pieces_of_blank hblank k

/-- In front of the last piece that is allowed there are the others and nothing else, and it is all
    that is behind them. -/
theorem exists_front_of_last (h : (pieces (n + 1) cs)[n]? = some last) :
    ∃ front, cs = front ++ last ∧ words front = (pieces (n + 1) cs).take n := by
  induction n generalizing cs with
  | zero =>
      rcases blank_or_opens cs with hblank | ⟨lead, rest, rfl, hlead, hopens⟩
      · rw [pieces_of_blank hblank] at h
        cases h
      · rw [pieces_append_of_blank hlead, pieces_one hopens] at h
        cases h
        exact ⟨lead, rfl, words_of_blank hlead⟩
  | succ n ih =>
      rcases blank_or_token cs with hblank | ⟨lead, token, behind, rfl, hlead, htoken, hbehind⟩
      · rw [pieces_of_blank hblank] at h
        cases h
      · rw [pieces_append_of_blank hlead, pieces_append_token htoken hbehind] at h ⊢
        obtain ⟨front, hfront, hwords⟩ := ih h
        refine ⟨lead ++ (token ++ front), by rw [hfront]; simp, ?_⟩
        rw [hfront] at hbehind
        rw [words_append_token hlead htoken hbehind.of_append, hwords, List.take_succ_cons]

/-- **Cutting a text keeps all of it but blanks.** Cutting ends, after one round for each piece; and
    there are as many pieces as words, but no more than `k`, and none for a blank text. Any other
    text is made of blanks, the pieces with gaps between them, and blanks, of which those at the end
    are there only if more pieces were allowed; the pieces start with characters that are not blank,
    and all but the `k`-th hold no blanks. The text can be made in this way of no other parts. A
    `k`-th piece is all that stands behind the others. -/
theorem pieces_keep_text (k : Nat) (cs : List Char) :
    (0 < k → (Cutting.start cs).EndsAfter k (pieces k cs).length (pieces k cs)) ∧
    (pieces k cs).length = min k (words cs).length ∧
    (pieces k cs = [] ↔ k = 0 ∨ Blank cs) ∧
    (0 < k → ¬Blank cs → ∃ l : Layout, l.text = cs ∧ l.parts = pieces k cs ∧ l.IsCut k) ∧
    (∀ l : Layout, l.text = cs → l.IsCut k → l.parts = pieces k cs) ∧
    ∀ last, (pieces k cs)[k - 1]? = some last →
      ∃ front, cs = front ++ last ∧ words front = (pieces k cs).take (k - 1) := by
  refine ⟨fun hk => ?_, length_pieces k cs, pieces_eq_nil_iff, fun hk hcs => ?_, ?_, ?_⟩
  · obtain ⟨n, rfl⟩ := Nat.exists_eq_succ_of_ne_zero hk.ne'
    have hends := Cutting.endsAfter_pieces n [] cs
    rwa [List.length_nil, Nat.zero_add, List.nil_append] at hends
  · obtain ⟨n, rfl⟩ := Nat.exists_eq_succ_of_ne_zero hk.ne'
    obtain ⟨l, rfl, hcut⟩ := Layout.exists_isCut n hcs
    exact ⟨l, rfl, hcut.pieces_eq.symm, hcut⟩
  · rintro l rfl hcut
    exact hcut.pieces_eq.symm
  · intro last hlast
    cases k with
    | zero => cases hlast
    | succ n => exact exists_front_of_last hlast

/-- Two pieces and what stands behind them, with blanks of several kinds. -/
def wideBlanks : Layout where
  lead := "\u3000".toList
  first := "a".toList
  others := [("\u2003 ".toList, "b".toList), ("\u00a0".toList, "c  d\u0085".toList)]
  tail := []

/-- The third piece keeps the blanks inside it and at its end. -/
theorem pieces_keep_text_wideBlanks :
    wideBlanks.text = "\u3000a\u2003 b\u00a0c  d\u0085".toList ∧
      0 < 3 ∧ ¬Blank wideBlanks.text ∧ wideBlanks.IsCut 3 ∧
      wideBlanks.parts = pieces 3 wideBlanks.text ∧
      (Cutting.start wideBlanks.text).EndsAfter 3 3 (pieces 3 wideBlanks.text) ∧
      (∃ l : Layout, l.text = wideBlanks.text ∧ l.parts = pieces 3 wideBlanks.text ∧ l.IsCut 3) ∧
      (pieces 3 wideBlanks.text)[2]? = some "c  d\u0085".toList ∧
      ∃ front, wideBlanks.text = front ++ "c  d\u0085".toList ∧
        words front = ["a".toList, "b".toList] := by
  obtain ⟨hends, -, -, hlayout, hparts, hlast⟩ := pieces_keep_text 3 wideBlanks.text
  have hcs : ¬Blank wideBlanks.text := by decide
  have hcut : wideBlanks.IsCut 3 := by
    have hrest : Opens "c  d\u0085".toList := ⟨'c', rfl, by decide⟩
    exact Layout.isCut_after_iff.2 ⟨by decide, by decide, by decide,
      Layout.isCut_after_iff.2 ⟨by decide, by decide, by decide,
        Layout.isCut_rest (by decide) hrest⟩⟩
  have hpieces := hparts wideBlanks rfl hcut
  refine ⟨by decide, by decide, hcs, hcut, hpieces, ?_, hlayout (by decide) hcs, ?_, ?_⟩
  · have hrounds := hends (by decide)
    rwa [← hpieces] at hrounds ⊢
  · rw [← hpieces]
    rfl
  · have hfront := hlast _ (by rw [← hpieces]; rfl)
    rwa [← hpieces] at hfront

end SigVerdict.Text
