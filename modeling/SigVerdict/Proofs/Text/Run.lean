import Mathlib.Data.List.Infix
import Mathlib.Data.List.TakeWhile
import SigVerdict.Text.Split

set_option autoImplicit false

/-! # Runs and where they stand

The runs of a text are described from outside in two ways. A text is parted into runs when it is
made of them, with separators between each two and any separators at the ends (`Parted`); this is so
for its own runs and for no other list (`runs_eq_iff_parted`). And a run is a stretch of the text
that cannot be made longer: the runs of a text are those of all such stretches, from the first to
the last (`exists_stretches`).

A separator ends a run whatever stands around it, so the runs of a text can be found on its two
sides separately (`runs_append_separator`). -/

namespace SigVerdict.Text

variable {sep : Char → Bool} {c : Char} {cs lead tail run run' rest rest' : List Char}
  {rs : List (List Char)}

/-! ## What runs are parted by -/

/-- A text without separators. -/
def IsRun (sep : Char → Bool) (cs : List Char) : Prop := cs ≠ [] ∧ ∀ c ∈ cs, sep c = false

/-- A text in front of which a run ends: its first character, if it has one, is a separator. -/
def Stops (sep : Char → Bool) (cs : List Char) : Prop := ∀ c, cs.head? = some c → sep c = true

/-- A text is parted into runs: in front of each of them there are separators only, and behind it
    comes a separator or the end. -/
inductive Parted (sep : Char → Bool) : List (List Char) → List Char → Prop where
  | none {cs : List Char} (h : ∀ c ∈ cs, sep c = true) : Parted sep [] cs
  | cons {lead run rest : List Char} {rs : List (List Char)} (hlead : ∀ c ∈ lead, sep c = true)
      (hrun : IsRun sep run) (hstops : Stops sep rest) (hrest : Parted sep rs rest) :
      Parted sep (run :: rs) (lead ++ (run ++ rest))

theorem stops_cons (h : sep c = true) (cs : List Char) : Stops sep (c :: cs) := by
  rintro d ⟨⟩
  exact h

/-- Where a run stands, no text can be empty and no separator be in front. -/
theorem IsRun.not_stops (h : IsRun sep run) (rest : List Char) : ¬Stops sep (run ++ rest) := by
  obtain ⟨hne, hrun⟩ := h
  obtain ⟨c, cs, rfl⟩ := List.exists_cons_of_ne_nil hne
  intro hstops
  have hc := hrun c List.mem_cons_self
  rw [hstops c rfl] at hc
  cases hc

/-- A text holds separators only, or it has a first run. -/
theorem separators_or_run (sep : Char → Bool) (cs : List Char) :
    (∀ c ∈ cs, sep c = true) ∨ ∃ lead run rest, cs = lead ++ (run ++ rest) ∧
      (∀ c ∈ lead, sep c = true) ∧ IsRun sep run ∧ Stops sep rest := by
  by_cases hnil : cs.dropWhile sep = []
  · exact Or.inl (List.dropWhile_eq_nil_iff.1 hnil)
  · have hhead : sep ((cs.dropWhile sep).head hnil) = false := List.head_dropWhile_not sep hnil
    refine Or.inr ⟨cs.takeWhile sep, (cs.dropWhile sep).takeWhile (!sep ·),
      (cs.dropWhile sep).dropWhile (!sep ·), ?_, fun c hc => List.mem_takeWhile_imp hc,
      ⟨?_, fun c hc => ?_⟩, fun c hc => ?_⟩
    · rw [List.takeWhile_append_dropWhile, List.takeWhile_append_dropWhile]
    · obtain ⟨c, rest, hcons⟩ := List.exists_cons_of_ne_nil hnil
      simp only [hcons, List.head_cons] at hhead
      rw [hcons, List.takeWhile_cons_of_pos (by rw [hhead]; rfl)]
      exact List.cons_ne_nil _ _
    · simpa using List.mem_takeWhile_imp hc
    · have hstop := List.head?_dropWhile_not (!sep ·) (cs.dropWhile sep)
      rw [hc] at hstop
      simpa using hstop

/-! ## Finding runs -/

theorem runsFrom_append_of_sep (h : ∀ c ∈ lead, sep c = true) (cs : List Char) :
    runsFrom sep [] (lead ++ cs) = runsFrom sep [] cs := by
  induction lead with
  | nil => rfl
  | cons c lead ih =>
      rw [List.forall_mem_cons] at h
      rw [List.cons_append, runsFrom, if_pos h.1, if_pos List.isEmpty_nil, ih h.2]

theorem runsFrom_append_of_not_sep (h : ∀ c ∈ run, sep c = false) (held cs : List Char) :
    runsFrom sep held (run ++ cs) = runsFrom sep (run.reverse ++ held) cs := by
  induction run generalizing held with
  | nil => rfl
  | cons c run ih =>
      rw [List.forall_mem_cons] at h
      rw [List.cons_append, runsFrom, h.1, if_neg Bool.false_ne_true, ih h.2, List.reverse_cons,
        List.append_assoc, List.singleton_append]

theorem runsFrom_of_stops {held : List Char} (hne : held ≠ []) (h : Stops sep rest) :
    runsFrom sep held rest = held.reverse :: runsFrom sep [] rest := by
  have hheld : ¬held.isEmpty = true := by simpa using hne
  cases rest with
  | nil => rw [runsFrom, if_neg hheld, runsFrom, if_pos List.isEmpty_nil]
  | cons c rest =>
      rw [runsFrom, runsFrom, if_pos (h c rfl), if_neg hheld, if_pos (h c rfl),
        if_pos List.isEmpty_nil]

/-- Separators at the start of a text make no difference to its runs. -/
theorem runs_separators_append (h : ∀ c ∈ lead, sep c = true) (cs : List Char) :
    runs sep (lead ++ cs) = runs sep cs :=
  runsFrom_append_of_sep h cs

theorem runs_of_separators (h : ∀ c ∈ cs, sep c = true) : runs sep cs = [] := by
  have hruns := runs_separators_append h []
  rwa [List.append_nil] at hruns

/-- The first run of a text is the one that stands behind separators only. -/
theorem runs_append_run (hlead : ∀ c ∈ lead, sep c = true) (hrun : IsRun sep run)
    (hstops : Stops sep rest) : runs sep (lead ++ (run ++ rest)) = run :: runs sep rest := by
  have hne : run.reverse ≠ [] := by simpa using hrun.1
  rw [runs, runsFrom_append_of_sep hlead, runsFrom_append_of_not_sep hrun.2, List.append_nil,
    runsFrom_of_stops hne hstops, List.reverse_reverse, runs]

theorem runsFrom_append_separator (h : sep c = true) (held cs rest : List Char) :
    runsFrom sep held (cs ++ c :: rest) = runsFrom sep held cs ++ runsFrom sep [] rest := by
  induction cs generalizing held with
  | nil =>
      simp only [List.nil_append, runsFrom, if_pos h]
      split <;> rfl
  | cons d cs ih =>
      simp only [List.cons_append, runsFrom, ih]
      split
      · split <;> rfl
      · rfl

/-- A separator parts a text into two that have their runs each by itself. -/
theorem runs_append_separator (h : sep c = true) (cs rest : List Char) :
    runs sep (cs ++ c :: rest) = runs sep cs ++ runs sep rest :=
  runsFrom_append_separator h [] cs rest

/-- Separators at the end of a text make no difference to its runs. -/
theorem runs_append_separators (h : ∀ c ∈ tail, sep c = true) (cs : List Char) :
    runs sep (cs ++ tail) = runs sep cs := by
  cases tail with
  | nil => rw [List.append_nil]
  | cons c tail =>
      rw [List.forall_mem_cons] at h
      rw [runs_append_separator h.1, runs_of_separators h.2, List.append_nil]

theorem Parted.isRun_of_mem (h : Parted sep rs cs) (hmem : run ∈ rs) : IsRun sep run := by
  induction h with
  | none => cases hmem
  | cons hlead hrun hstops hrest ih =>
      rcases List.mem_cons.1 hmem with rfl | hmem
      · exact hrun
      · exact ih hmem

theorem runs_of_parted (h : Parted sep rs cs) : runs sep cs = rs := by
  induction h with
  | none h => exact runs_of_separators h
  | cons hlead hrun hstops hrest ih => rw [runs_append_run hlead hrun hstops, ih]

/-- A text is parted into its runs. -/
theorem parted_runs (sep : Char → Bool) (cs : List Char) : Parted sep (runs sep cs) cs := by
  -- on the length of the text, of which a run takes some characters
  induction hn : cs.length using Nat.strongRecOn generalizing cs with
  | _ n ih =>
      rcases separators_or_run sep cs with h | ⟨lead, run, rest, rfl, hlead, hrun, hstops⟩
      · rw [runs_of_separators h]
        exact .none h
      · have hshort : rest.length < n := by
          have hpos := List.length_pos_iff.2 hrun.1
          rw [← hn, List.length_append, List.length_append]
          omega
        rw [runs_append_run hlead hrun hstops]
        exact .cons hlead hrun hstops (ih rest.length hshort rest rfl)

/-- The runs of a text are the only ones into which it is parted. -/
theorem runs_eq_iff_parted : runs sep cs = rs ↔ Parted sep rs cs := by
  refine ⟨?_, runs_of_parted⟩
  rintro rfl
  exact parted_runs sep cs

/-! ## Stretches of a text -/

/-- A stretch of a text, with what stands in front of it and behind it. -/
structure Stretch where
  front : List Char
  run : List Char
  behind : List Char

namespace Stretch

variable {p q : Stretch}

/-- The text that a stretch is part of. -/
def text (p : Stretch) : List Char := p.front ++ (p.run ++ p.behind)

/-- The same stretch with more text in front. -/
def after (p : Stretch) (more : List Char) : Stretch := { p with front := more ++ p.front }

/-- This stretch of a text is a run, and it is part of no longer one. -/
structure IsMaximal (sep : Char → Bool) (cs : List Char) (p : Stretch) : Prop where
  text : p.text = cs
  isRun : IsRun sep p.run
  maximal : ∀ q : Stretch, q.text = cs → IsRun sep q.run → q.front <+: p.front →
    q.behind <:+ p.behind → q = p

/-- What stands around a stretch is separated from it. -/
structure IsSeparated (sep : Char → Bool) (p : Stretch) : Prop where
  front : ∀ c, p.front.getLast? = some c → sep c = true
  behind : Stops sep p.behind

/-- A longer run would have to take in a character next to the stretch. -/
theorem eq_of_isSeparated (h : p.IsSeparated sep) (htext : q.text = p.text) (hrun : IsRun sep q.run)
    (hfront : q.front <+: p.front) (hbehind : q.behind <:+ p.behind) : q = p := by
  obtain ⟨front, run, behind⟩ := p
  obtain ⟨front', run', behind'⟩ := q
  obtain ⟨x, rfl⟩ := hfront
  obtain ⟨y, rfl⟩ := hbehind
  have hrun' : run' = x ++ (run ++ y) := by
    simp only [text, List.append_assoc, List.append_cancel_left_eq] at htext
    simpa using List.append_cancel_right (htext.trans (by simp : _ = (x ++ (run ++ y)) ++ behind'))
  have hx : x = [] := by
    by_contra hne
    have hsep := h.front (x.getLast hne) (by
      rw [List.getLast?_append_of_ne_nil _ hne, List.getLast?_eq_some_getLast hne])
    rw [hrun.2 _ (by rw [hrun']; simp)] at hsep
    cases hsep
  have hy : y = [] := by
    by_contra hne
    have hsep := h.behind (y.head hne) (by
      rw [List.head?_append_of_ne_nil _ hne, List.head?_eq_some_head hne])
    rw [hrun.2 _ (by rw [hrun']; simp)] at hsep
    cases hsep
  subst hx hy
  simp [hrun']

/-- A run cannot be made longer exactly when it has separators around it, or the ends of the
    text. -/
theorem isMaximal_iff :
    p.IsMaximal sep cs ↔ p.text = cs ∧ IsRun sep p.run ∧ p.IsSeparated sep := by
  constructor
  · rintro ⟨htext, hrun, hmaximal⟩
    refine ⟨htext, hrun, ⟨fun c hc => ?_, fun c hc => ?_⟩⟩
    · by_contra hsep
      obtain ⟨front, hfront⟩ := List.getLast?_eq_some_iff.1 hc
      have heq := hmaximal ⟨front, c :: p.run, p.behind⟩ (by simp [← htext, text, hfront])
        ⟨List.cons_ne_nil _ _, List.forall_mem_cons.2 ⟨by simpa using hsep, hrun.2⟩⟩
        (by rw [hfront]; exact List.prefix_append _ _) (List.suffix_refl _)
      have hlength := congrArg (fun p => p.run.length) heq
      simp at hlength
    · by_contra hsep
      obtain ⟨behind, hbehind⟩ := List.head?_eq_some_iff.1 hc
      have heq := hmaximal ⟨p.front, p.run ++ [c], behind⟩ (by simp [← htext, text, hbehind])
        ⟨by simp, by simpa [or_imp, forall_and] using ⟨hrun.2, by simpa using hsep⟩⟩
        (List.prefix_refl _) (by rw [hbehind]; exact List.suffix_cons _ _)
      have hlength := congrArg (fun p => p.run.length) heq
      simp at hlength
  · rintro ⟨htext, hrun, hseparated⟩
    refine ⟨htext, hrun, fun q hq hrun' hfront hbehind => ?_⟩
    exact eq_of_isSeparated hseparated (hq.trans htext.symm) hrun' hfront hbehind

/-- Runs that start together end together. -/
theorem run_append_inj (hrun : IsRun sep run) (hrun' : IsRun sep run') (hstops : Stops sep rest)
    (hstops' : Stops sep rest') (h : run ++ rest = run' ++ rest') : run = run' ∧ rest = rest' := by
  rcases List.append_eq_append_iff.1 h with ⟨x, hx, hrest⟩ | ⟨x, hx, hrest⟩
  · cases x with
    | nil => simp_all
    | cons c x =>
        have hc := hrun'.2 c (by simp [hx])
        rw [hstops c (by simp [hrest])] at hc
        cases hc
  · cases x with
    | nil => simp_all
    | cons c x =>
        have hc := hrun.2 c (by simp [hx])
        rw [hstops' c (by simp [hrest])] at hc
        cases hc

/-- In front of a run, the last character is a separator. -/
theorem IsSeparated.exists_separator (h : p.IsSeparated sep) {more last : List Char}
    (hfront : p.front = more ++ last) (hne : last ≠ []) : ∃ c ∈ last, sep c = true := by
  refine ⟨last.getLast hne, List.getLast_mem hne, h.front _ ?_⟩
  rw [hfront, List.getLast?_append_of_ne_nil _ hne, List.getLast?_eq_some_getLast hne]

/-- A run of a text with a first run is the first one, or it is behind it. -/
theorem eq_or_after_of_text (hlead : ∀ c ∈ lead, sep c = true) (hrun : IsRun sep run)
    (hstops : Stops sep rest) (htext : p.text = lead ++ (run ++ rest)) (hp : IsRun sep p.run)
    (hseparated : p.IsSeparated sep) :
    p = ⟨lead, run, rest⟩ ∨ ∃ q : Stretch, p = q.after (lead ++ run) ∧ q.text = rest ∧
      q.IsSeparated sep := by
  have hvisible : ∀ {last : List Char}, (∀ c ∈ last, sep c = false) →
      (∃ c ∈ last, sep c = true) → False := fun hfalse ⟨c, hc, htrue⟩ => by
    rw [hfalse c hc] at htrue
    cases htrue
  obtain ⟨front, run', behind⟩ := p
  rcases List.append_eq_append_iff.1 htext with ⟨x, rfl, h⟩ | ⟨x, hx, h⟩
  · -- the stretch starts in front of the first run, and so the run would start with a separator
    cases x with
    | nil =>
        obtain ⟨rfl, rfl⟩ := run_append_inj hp hrun hseparated.behind hstops h
        exact Or.inl (by rw [List.append_nil])
    | cons c x =>
        refine absurd (?_ : Stops sep (run' ++ behind)) (hp.not_stops behind)
        rw [h]
        exact stops_cons (hlead c (by simp)) _
  · by_cases hnil : x = []
    · subst hnil
      obtain ⟨rfl, rfl⟩ := run_append_inj hrun hp hstops hseparated.behind h
      exact Or.inl (by rw [← List.append_nil lead, ← hx])
    · have hlast := hseparated.exists_separator hx hnil
      rcases List.append_eq_append_iff.1 h with ⟨y, rfl, hy⟩ | ⟨y, rfl, -⟩
      · have hne : y ≠ [] := by
          rintro rfl
          rw [List.append_nil] at hlast
          exact hvisible hrun.2 hlast
        refine Or.inr ⟨⟨y, run', behind⟩, ?_, hy.symm, fun c hc => ?_, hseparated.behind⟩
        · rw [after, List.append_assoc, ← hx]
        · refine hseparated.front c ?_
          rw [hx, ← List.append_assoc, List.getLast?_append_of_ne_nil _ hne, hc]
      · exact absurd hlast fun hlast => hvisible (fun c hc => hrun.2 c (by simp [hc])) hlast

/-- The maximal runs of a text with a first run are the first one, and those behind it. -/
theorem isMaximal_append_iff (hlead : ∀ c ∈ lead, sep c = true) (hrun : IsRun sep run)
    (hstops : Stops sep rest) :
    p.IsMaximal sep (lead ++ (run ++ rest)) ↔
      p = ⟨lead, run, rest⟩ ∨ ∃ q : Stretch, q.IsMaximal sep rest ∧ p = q.after (lead ++ run) := by
  simp only [isMaximal_iff]
  constructor
  · rintro ⟨htext, hp, hseparated⟩
    rcases eq_or_after_of_text hlead hrun hstops htext hp hseparated with h | ⟨q, rfl, hq, hsep⟩
    · exact Or.inl h
    · exact Or.inr ⟨q, ⟨hq, hp, hsep⟩, rfl⟩
  · rintro (rfl | ⟨q, ⟨rfl, hq, hseparated⟩, rfl⟩)
    · exact ⟨rfl, hrun, fun c hc => hlead c (List.mem_of_getLast? hc), hstops⟩
    · -- right behind the first run there can be no other one
      have hne : q.front ≠ [] := by
        intro hnil
        refine hq.not_stops q.behind ?_
        rwa [text, hnil] at hstops
      refine ⟨by simp [text, after], hq, fun c hc => ?_, hseparated.behind⟩
      rw [after, List.getLast?_append_of_ne_nil _ hne] at hc
      exact hseparated.front c hc

end Stretch

/-- The runs of a text are those of all stretches that are runs and cannot be made longer, from the
    first to the last. -/
theorem exists_stretches (sep : Char → Bool) (cs : List Char) :
    ∃ stretches : List Stretch, runs sep cs = stretches.map Stretch.run ∧
      stretches.Pairwise (fun p q => p.front.length < q.front.length) ∧
      ∀ p, p ∈ stretches ↔ p.IsMaximal sep cs := by
  have hparted := parted_runs sep cs
  generalize runs sep cs = rs at hparted ⊢
  induction hparted with
  | @none cs h =>
      refine ⟨[], rfl, .nil, fun p => iff_of_false List.not_mem_nil fun hp => ?_⟩
      obtain ⟨c, run, hcons⟩ := List.exists_cons_of_ne_nil hp.isRun.1
      have hc := hp.isRun.2 c (by simp [hcons])
      rw [h c (by rw [← hp.text, Stretch.text, hcons]; simp)] at hc
      cases hc
  | @cons lead run rest rs hlead hrun hstops hrest ih =>
      obtain ⟨stretches, rfl, hsorted, hall⟩ := ih
      refine ⟨⟨lead, run, rest⟩ :: stretches.map (·.after (lead ++ run)), ?_, ?_, fun p => ?_⟩
      · simp [Stretch.after, Function.comp_def]
      · rw [List.pairwise_cons, List.pairwise_map]
        refine ⟨fun p hp => ?_, hsorted.imp fun h => ?_⟩
        · obtain ⟨q, -, rfl⟩ := List.mem_map.1 hp
          have hpos := List.length_pos_iff.2 hrun.1
          simp only [Stretch.after, List.length_append]
          omega
        · simpa [Stretch.after] using h
      · rw [Stretch.isMaximal_append_iff hlead hrun hstops, List.mem_cons, List.mem_map]
        simp only [hall, eq_comm]

end SigVerdict.Text
