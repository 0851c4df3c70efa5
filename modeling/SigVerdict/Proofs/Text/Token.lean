import SigVerdict.Proofs.Text.Run
import SigVerdict.Text.Split

set_option autoImplicit false

/-! # Tokens and the gaps between them

A text of tokens is described from outside, as blanks and tokens that are put one behind the other,
and not by how it is read. Each way of reading a text has its equations in these terms: trimming
takes the blanks off an end, `words` finds the next token (`words_append_token`), and so does
`pieces`, unless all that is left makes a single piece (`pieces_append_token`). So there are as many
pieces as words, but no more than are asked for (`length_pieces`).

What `pieces` makes of a text that starts and ends with characters that are not blank is the only
way to take this text for so many parts with gaps between them (`pieces_of_spaced`,
`spaced_pieces`). -/

namespace SigVerdict.Text

/-! ## Shapes of texts -/

/-- A text of blanks, if of anything. -/
def Blank (cs : List Char) : Prop := ∀ c ∈ cs, isBlank c = true

/-- A text of blanks that parts what stands around it. -/
def Gap (cs : List Char) : Prop := cs ≠ [] ∧ Blank cs

/-- A text without blanks. -/
def Token (cs : List Char) : Prop := cs ≠ [] ∧ ∀ c ∈ cs, isBlank c = false

/-- A text whose first character is not blank. -/
def Opens (cs : List Char) : Prop := ∃ c, cs.head? = some c ∧ isBlank c = false

/-- A text whose last character is not blank. -/
def Closes (cs : List Char) : Prop := ∃ c, cs.getLast? = some c ∧ isBlank c = false

/-- A text whose first and last characters are not blank; it may have blanks between them. -/
structure Phrase (cs : List Char) : Prop where
  opens : Opens cs
  closes : Closes cs

/-- A text in front of which a token ends: its first character, if it has one, is blank. -/
def Boundary (cs : List Char) : Prop := ∀ c, cs.head? = some c → isBlank c = true

instance (cs : List Char) : Decidable (Blank cs) :=
  decidable_of_iff (cs.all isBlank = true) List.all_eq_true

instance (cs : List Char) : Decidable (Gap cs) :=
  inferInstanceAs (Decidable (cs ≠ [] ∧ Blank cs))

instance (cs : List Char) : Decidable (Token cs) :=
  decidable_of_iff (cs ≠ [] ∧ cs.all (!isBlank ·) = true)
    (and_congr_right fun _ => by simp only [List.all_eq_true, Bool.not_eq_true'])

variable {lead token gap cs front behind tail : List Char}

theorem blank_nil : Blank [] := nofun

theorem boundary_nil : Boundary [] := nofun

theorem gap_space : Gap [' '] := ⟨List.cons_ne_nil _ _, by decide⟩

theorem Opens.ne_nil (h : Opens cs) : cs ≠ [] := by
  rintro rfl
  obtain ⟨c, hc, -⟩ := h
  cases hc

theorem Closes.not_blank (h : Closes cs) : ¬Blank cs := by
  obtain ⟨c, hc, hvisible⟩ := h
  intro hblank
  rw [hblank c (List.mem_of_getLast? hc)] at hvisible
  cases hvisible

theorem Opens.not_boundary (h : Opens cs) : ¬Boundary cs := by
  obtain ⟨c, hc, hvisible⟩ := h
  intro hboundary
  rw [hboundary c hc] at hvisible
  cases hvisible

theorem Opens.append (h : Opens cs) (behind : List Char) : Opens (cs ++ behind) := by
  obtain ⟨c, hc, hvisible⟩ := h
  exact ⟨c, by rw [List.head?_append, hc, Option.some_or], hvisible⟩

theorem Closes.append (h : Closes cs) (front : List Char) : Closes (front ++ cs) := by
  obtain ⟨c, hc, hvisible⟩ := h
  exact ⟨c, by rw [List.getLast?_append, hc, Option.some_or], hvisible⟩

/-- The last character of a text is that of its second part, unless there is none. -/
theorem Closes.of_append (h : Closes (front ++ cs)) (hne : cs ≠ []) : Closes cs := by
  obtain ⟨c, hc, hvisible⟩ := h
  rw [List.getLast?_append, List.getLast?_eq_some_getLast hne, Option.some_or] at hc
  exact ⟨c, by rw [List.getLast?_eq_some_getLast hne, hc], hvisible⟩

theorem Token.phrase (h : Token cs) : Phrase cs := by
  obtain ⟨hne, hvisible⟩ := h
  exact ⟨⟨cs.head hne, List.head?_eq_some_head hne, hvisible _ (List.head_mem hne)⟩,
    ⟨cs.getLast hne, List.getLast?_eq_some_getLast hne, hvisible _ (List.getLast_mem hne)⟩⟩

theorem Gap.boundary (h : Gap gap) (cs : List Char) : Boundary (gap ++ cs) := by
  obtain ⟨hne, hblank⟩ := h
  intro c hc
  rw [List.head?_append, List.head?_eq_some_head hne, Option.some_or, Option.some.injEq] at hc
  exact hc ▸ hblank _ (List.head_mem hne)

theorem lineFeed_not_mem_token (h : Token cs) : '\n' ∉ cs := by
  intro hmem
  have hvisible := h.2 _ hmem
  exact absurd hvisible (by decide)

/-- A text is blank, or blanks stand in front of what is not. -/
theorem blank_or_opens (cs : List Char) :
    Blank cs ∨ ∃ lead rest, cs = lead ++ rest ∧ Blank lead ∧ Opens rest := by
  by_cases hnil : cs.dropWhile isBlank = []
  · exact Or.inl (List.dropWhile_eq_nil_iff.1 hnil)
  · refine Or.inr ⟨cs.takeWhile isBlank, cs.dropWhile isBlank,
      List.takeWhile_append_dropWhile.symm, fun c hc => List.mem_takeWhile_imp hc, ?_⟩
    exact ⟨_, List.head?_eq_some_head hnil, List.head_dropWhile_not isBlank hnil⟩

/-- A text that does not start with a blank starts with a token. -/
theorem Opens.exists_token (h : Opens cs) :
    ∃ token behind, cs = token ++ behind ∧ Token token ∧ Boundary behind := by
  refine ⟨cs.takeWhile (!isBlank ·), cs.dropWhile (!isBlank ·),
    List.takeWhile_append_dropWhile.symm, ⟨?_, fun c hc => ?_⟩, fun c hc => ?_⟩
  · obtain ⟨c, hc, hvisible⟩ := h
    obtain ⟨rest, rfl⟩ := List.head?_eq_some_iff.1 hc
    rw [List.takeWhile_cons_of_pos (by rw [hvisible]; rfl)]
    exact List.cons_ne_nil _ _
  · simpa using List.mem_takeWhile_imp hc
  · have hhead := List.head?_dropWhile_not (!isBlank ·) cs
    rw [hc] at hhead
    simpa using hhead

theorem Blank.boundary (h : Blank cs) : Boundary cs := fun c hc => h c (List.mem_of_head? hc)

theorem Boundary.of_append (h : Boundary (front ++ cs)) : Boundary front := by
  intro c hc
  exact h c (by rw [List.head?_append, hc, Option.some_or])

/-- Blanks between the end of a token and what does not start with a blank are a gap. -/
theorem Boundary.gap_of_opens (h : Boundary (gap ++ cs)) (hblank : Blank gap) (hopens : Opens cs) :
    Gap gap := by
  refine ⟨?_, hblank⟩
  rintro rfl
  exact hopens.not_boundary h

/-- What is not blank is taken off a text up to the end of its first token. -/
theorem takeWhile_token_append (htoken : Token token) (hbehind : Boundary behind) :
    (token ++ behind).takeWhile (!isBlank ·) = token := by
  have hvisible : ∀ c ∈ token, (!isBlank c) = true := fun c hc => by rw [htoken.2 c hc]; rfl
  rw [List.takeWhile_append_of_pos hvisible]
  cases behind with
  | nil => rw [List.takeWhile_nil, List.append_nil]
  | cons c behind =>
      rw [List.takeWhile_cons_of_neg (by simp [hbehind c rfl]), List.append_nil]

theorem dropWhile_token_append (htoken : Token token) (hbehind : Boundary behind) :
    (token ++ behind).dropWhile (!isBlank ·) = behind := by
  have hvisible : ∀ c ∈ token, (!isBlank c) = true := fun c hc => by rw [htoken.2 c hc]; rfl
  rw [List.dropWhile_append_of_pos hvisible]
  cases behind with
  | nil => rfl
  | cons c behind => rw [List.dropWhile_cons_of_neg (by simp [hbehind c rfl])]

/-- A text is blank, or it has a first token. -/
theorem blank_or_token (cs : List Char) :
    Blank cs ∨ ∃ lead token behind, cs = lead ++ (token ++ behind) ∧ Blank lead ∧ Token token ∧
      Boundary behind :=
  separators_or_run isBlank cs

/-! ## Trimming -/

theorem trimStart_append_of_blank (h : Blank lead) (cs : List Char) :
    trimStart (lead ++ cs) = trimStart cs :=
  List.dropWhile_append_of_pos h

theorem trimStart_of_opens (h : Opens cs) : trimStart cs = cs := by
  obtain ⟨c, hc, hvisible⟩ := h
  obtain ⟨rest, rfl⟩ := List.head?_eq_some_iff.1 hc
  exact trimStart_cons_of_not_blank hvisible

theorem trimStart_of_blank (h : Blank cs) : trimStart cs = [] :=
  List.dropWhile_eq_nil_iff.2 h

theorem trimEnd_append_of_blank (h : Blank tail) (cs : List Char) :
    trimEnd (cs ++ tail) = trimEnd cs := by
  rw [trimEnd, List.reverse_append, List.dropWhile_append_of_pos, trimEnd]
  exact fun c hc => h c (List.mem_reverse.1 hc)

theorem trimEnd_of_blank (h : Blank cs) : trimEnd cs = [] :=
  trimEnd_append_of_blank h []

/-- Trimming stops at a character that is not blank. -/
theorem trimEnd_append_of_closes (h : Closes front) (behind : List Char) :
    trimEnd (front ++ behind) = front ++ trimEnd behind := by
  obtain ⟨c, hc, hvisible⟩ := h
  have hfront : front.reverse.dropWhile isBlank = front.reverse := by
    rw [← List.head?_reverse] at hc
    obtain ⟨rest, hrest⟩ := List.head?_eq_some_iff.1 hc
    rw [hrest, List.dropWhile_cons_of_neg (by simp [hvisible])]
  rw [trimEnd, List.reverse_append, List.dropWhile_append, hfront]
  split
  · next hnil =>
      rw [trimEnd, List.isEmpty_iff.1 hnil, List.reverse_nil, List.append_nil, List.reverse_reverse]
  · rw [trimEnd, List.reverse_append, List.reverse_reverse]

theorem trimEnd_of_closes (h : Closes cs) : trimEnd cs = cs := by
  have htrim := trimEnd_append_of_closes h []
  rwa [List.append_nil, trimEnd_of_blank blank_nil, List.append_nil] at htrim

/-- A text is blank, or blanks stand behind what does not end with one. -/
theorem blank_or_closes (cs : List Char) :
    Blank cs ∨ ∃ rest tail, cs = rest ++ tail ∧ Closes rest ∧ Blank tail := by
  rcases blank_or_opens cs.reverse with hblank | ⟨lead, rest, hreverse, hlead, hopens⟩
  · exact Or.inl fun c hc => hblank c (List.mem_reverse.2 hc)
  · refine Or.inr ⟨rest.reverse, lead.reverse, ?_, ?_, fun c hc => hlead c (List.mem_reverse.1 hc)⟩
    · rw [← List.reverse_append, ← hreverse, List.reverse_reverse]
    · obtain ⟨c, hc, hvisible⟩ := hopens
      exact ⟨c, by rw [List.getLast?_reverse, hc], hvisible⟩

/-- What stands behind a token is blank, or it is a phrase with a gap in front of it and blanks
    behind it. -/
theorem Boundary.blank_or_phrase (h : Boundary behind) :
    Blank behind ∨
      ∃ gap cs tail, behind = gap ++ cs ++ tail ∧ Gap gap ∧ Phrase cs ∧ Blank tail := by
  rcases blank_or_closes behind with hblank | ⟨front, tail, rfl, hcloses, htail⟩
  · exact Or.inl hblank
  · rcases blank_or_opens front with hblank | ⟨gap, cs, rfl, hgap, hopens⟩
    · exact absurd hblank hcloses.not_blank
    · exact Or.inr ⟨gap, cs, tail, rfl, h.of_append.gap_of_opens hgap hopens,
        ⟨hopens, hcloses.of_append hopens.ne_nil⟩, htail⟩

theorem trim_of_blank (h : Blank cs) : trim cs = [] := by
  rw [trim, trimStart_of_blank h]
  rfl

/-- Trimming leaves the phrase that stands between blanks. -/
theorem trim_of_phrase (hlead : Blank lead) (h : Phrase cs) (htail : Blank tail) :
    trim (lead ++ cs ++ tail) = cs := by
  rw [trim, List.append_assoc, trimStart_append_of_blank hlead,
    trimStart_of_opens (h.opens.append tail), trimEnd_append_of_blank htail,
    trimEnd_of_closes h.closes]

theorem trim_of_token (h : Token cs) : trim cs = cs := by
  rw [trim, trimStart_of_opens h.phrase.opens, trimEnd_of_closes h.phrase.closes]

/-! ## Words -/

theorem words_append_of_blank (h : Blank lead) (cs : List Char) : words (lead ++ cs) = words cs :=
  runs_separators_append h cs

theorem words_of_blank (h : Blank cs) : words cs = [] := runs_of_separators h

/-- The first word of a text is its first token. -/
theorem words_append_token (hlead : Blank lead) (htoken : Token token) (hbehind : Boundary behind) :
    words (lead ++ (token ++ behind)) = token :: words behind :=
  runs_append_run hlead htoken hbehind

/-- The words of a text are tokens. -/
theorem token_of_mem_words {word : List Char} (h : word ∈ words cs) : Token word :=
  (parted_runs isBlank cs).isRun_of_mem h

theorem words_trimStart (cs : List Char) : words (trimStart cs) = words cs := by
  rcases blank_or_opens cs with hblank | ⟨lead, rest, rfl, hlead, hopens⟩
  · rw [trimStart_of_blank hblank, words_of_blank hblank, words_of_blank blank_nil]
  · rw [trimStart_append_of_blank hlead, trimStart_of_opens hopens, words_append_of_blank hlead]

theorem words_trimEnd (cs : List Char) : words (trimEnd cs) = words cs := by
  rcases blank_or_closes cs with hblank | ⟨rest, tail, rfl, hcloses, htail⟩
  · rw [trimEnd_of_blank hblank, words_of_blank hblank, words_of_blank blank_nil]
  · rw [trimEnd_append_of_blank htail, trimEnd_of_closes hcloses, words, words,
      runs_append_separators htail]

/-- Trimming keeps the words of a text. -/
theorem words_trim (cs : List Char) : words (trim cs) = words cs := by
  rw [trim, words_trimEnd, words_trimStart]

/-! ## Pieces -/

theorem pieces_append_of_blank (h : Blank lead) (k : Nat) (cs : List Char) :
    pieces k (lead ++ cs) = pieces k cs := by
  cases k with
  | zero => rfl
  | succ k => rw [pieces, pieces, trimStart_append_of_blank h]

theorem pieces_of_blank (h : Blank cs) (k : Nat) : pieces k cs = [] := by
  cases k with
  | zero => rfl
  | succ k => rw [pieces, trimStart_of_blank h]

/-- The last piece that is left is all that is left. -/
theorem pieces_one (h : Opens cs) : pieces 1 cs = [cs] := by
  rw [pieces, trimStart_of_opens h]
  cases cs with
  | nil => exact absurd rfl h.ne_nil
  | cons c rest => rfl

/-- The first of several pieces is the first token. -/
theorem pieces_append_token (htoken : Token token) (hbehind : Boundary behind) (k : Nat) :
    pieces (k + 2) (token ++ behind) = token :: pieces (k + 1) behind := by
  have hopens : Opens (token ++ behind) := htoken.phrase.opens.append behind
  rw [pieces, trimStart_of_opens hopens]
  split
  · next hnil => exact absurd hnil hopens.ne_nil
  · next c rest hcons =>
      rw [if_neg (Nat.succ_ne_zero k), ← hcons, takeWhile_token_append htoken hbehind,
        dropWhile_token_append htoken hbehind]

/-- There are as many pieces as words, but no more than are asked for. -/
theorem length_pieces (k : Nat) (cs : List Char) :
    (pieces k cs).length = min k (words cs).length := by
  induction k generalizing cs with
  | zero => simp
  | succ k ih =>
      rcases blank_or_token cs with hblank | ⟨lead, token, behind, rfl, hlead, htoken, hbehind⟩
      · rw [pieces_of_blank hblank, words_of_blank hblank]
        rfl
      · rw [pieces_append_of_blank hlead, words_append_token hlead htoken hbehind, List.length_cons]
        cases k with
        | zero =>
            rw [pieces_one (htoken.phrase.opens.append behind), List.length_singleton]
            omega
        | succ k =>
            rw [pieces_append_token htoken hbehind, List.length_cons, ih]
            omega

/-- When the words of a text are fewer than the pieces that are asked for, they are the pieces. -/
theorem pieces_eq_words {k : Nat} (h : (words cs).length < k) : pieces k cs = words cs := by
  induction k generalizing cs with
  | zero => exact absurd h (Nat.not_lt_zero _)
  | succ k ih =>
      rcases blank_or_token cs with hblank | ⟨lead, token, behind, rfl, hlead, htoken, hbehind⟩
      · rw [pieces_of_blank hblank, words_of_blank hblank]
      · rw [words_append_token hlead htoken hbehind, List.length_cons] at h
        rw [pieces_append_of_blank hlead, words_append_token hlead htoken hbehind]
        cases k with
        | zero => omega
        | succ k => rw [pieces_append_token htoken hbehind, ih (Nat.lt_of_succ_lt_succ h)]

/-- A text is made of the given parts, at most `n` of them, with gaps between them. Only the `n`-th
    part may hold blanks of its own. -/
inductive Spaced : Nat → List (List Char) → List Char → Prop where
  | rest {cs : List Char} (hrest : Phrase cs) : Spaced 1 [cs] cs
  | last {n : Nat} {token : List Char} (htoken : Token token) : Spaced (n + 2) [token] token
  | cons {n : Nat} {token gap : List Char} {parts : List (List Char)} {cs : List Char}
      (htoken : Token token) (hgap : Gap gap) (hparts : Spaced (n + 1) parts cs) :
      Spaced (n + 2) (token :: parts) (token ++ gap ++ cs)

variable {n : Nat} {parts : List (List Char)}

theorem Spaced.phrase (h : Spaced n parts cs) : Phrase cs := by
  induction h with
  | rest hrest => exact hrest
  | last htoken => exact htoken.phrase
  | cons htoken hgap hparts ih =>
      refine ⟨?_, ih.closes.append _⟩
      rw [List.append_assoc]
      exact htoken.phrase.opens.append _

/-- The pieces of a text are its parts. -/
theorem pieces_of_spaced (h : Spaced n parts cs) : pieces n cs = parts := by
  induction h with
  | rest hrest => exact pieces_one hrest.opens
  | @last n token htoken =>
      have hpieces := pieces_append_token htoken boundary_nil n
      rwa [List.append_nil, pieces_of_blank blank_nil] at hpieces
  | @cons n token gap parts cs htoken hgap hparts ih =>
      rw [List.append_assoc, pieces_append_token htoken (hgap.boundary cs),
        pieces_append_of_blank hgap.2, ih]

/-- A text that starts and ends with characters that are not blank is made of its pieces. -/
theorem spaced_pieces (h : Phrase cs) (hn : 0 < n) : Spaced n (pieces n cs) cs := by
  induction n generalizing cs with
  | zero => exact absurd hn (Nat.lt_irrefl 0)
  | succ n ih =>
      cases n with
      | zero =>
          rw [pieces_one h.opens]
          exact .rest h
      | succ n =>
          obtain ⟨token, behind, rfl, htoken, hbehind⟩ := h.opens.exists_token
          rw [pieces_append_token htoken hbehind]
          by_cases hnil : behind = []
          · rw [hnil, pieces_of_blank blank_nil, List.append_nil]
            exact .last htoken
          · have hcloses := h.closes.of_append hnil
            rcases blank_or_opens behind with hblank | ⟨gap, rest, rfl, hgap, hopens⟩
            · exact absurd hblank hcloses.not_blank
            · rw [pieces_append_of_blank hgap, ← List.append_assoc]
              exact .cons htoken (hbehind.gap_of_opens hgap hopens)
                (ih ⟨hopens, hcloses.of_append hopens.ne_nil⟩ (Nat.succ_pos n))

end SigVerdict.Text
