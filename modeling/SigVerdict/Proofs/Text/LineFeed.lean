import Mathlib.Tactic.SplitIfs
import SigVerdict.Text.Split
import SigVerdict.Text.Utf8

set_option autoImplicit false

/-! # Line feeds

A line feed is an octet of its own in UTF-8, and no character in the making can take it in. So
reading octets starts afresh behind each line feed, whatever stands in front of it
(`decodeLossy_append_lineFeed`), and so does the division of a text into lines
(`lines_append_lineFeed`). What stands between two line feeds is therefore read by itself.

No line feed comes or goes when octets are read (`count_lineFeed_decodeLossy`), and a text that ends
with one has as many lines as line feeds (`length_lines_of_ended`), so that lines can be counted in
the octets. -/

namespace SigVerdict.Text

namespace Utf8

/-! ## Octets -/

/-- The octet of a line feed. -/
def lineFeed : UInt8 := 10

/-- Inside a character, the octet that comes next is no octet of ASCII, and what has been read so
    far cannot come to a character of ASCII. -/
def State.Sound : State → Prop
  | .ready => True
  | .inside value left low _ => 0x80 ≤ low ∧ (0 < value ∨ (left ≠ 1 ∧ 0x80 < low))

theorem start_sound (b : Nat) : (start b).2.Sound := by
  unfold start
  split_ifs <;> simp only [State.Sound] <;> omega

/-- One octet leads from a sound state to a sound state. -/
theorem step_sound {s : State} (hs : s.Sound) (b : Nat) : (step s b).2.Sound := by
  cases s with
  | ready => exact start_sound b
  | inside value left low high =>
      simp only [State.Sound] at hs
      simp only [step]
      split_ifs with hb hleft
      · trivial
      · simp only [State.Sound]
        omega
      · exact start_sound b

/-- A line feed ends what is unfinished, and the reader is ready behind it. -/
theorem scan_lineFeed {s : State} (hs : s.Sound) (bs : List UInt8) :
    scan s (lineFeed :: bs) = s.rest ++ some '\n' :: scan .ready bs := by
  cases s with
  | ready => rfl
  | inside value left low high =>
      have hlow : ¬(low ≤ lineFeed.toNat ∧ lineFeed.toNat ≤ high) := by
        simp only [State.Sound] at hs
        have h10 : lineFeed.toNat = 10 := rfl
        omega
      rw [scan_cons, step, if_neg hlow]
      rfl

/-- What is read in front of a line feed does not depend on what stands behind it, nor the other
    way round. -/
theorem scan_append_lineFeed {s : State} (hs : s.Sound) (as bs : List UInt8) :
    scan s (as ++ lineFeed :: bs) = scan s as ++ some '\n' :: scan .ready bs := by
  induction as generalizing s with
  | nil => exact scan_lineFeed hs bs
  | cons a rest ih =>
      rw [List.cons_append, scan_cons, scan_cons, ih (step_sound hs a.toNat), List.append_assoc]

theorem decodeLossy_append_lineFeed (as bs : List UInt8) :
    decodeLossy (as ++ lineFeed :: bs) = decodeLossy as ++ '\n' :: decodeLossy bs := by
  have h := scan_append_lineFeed (s := .ready) trivial as bs
  simp only [decodeLossy, h, List.map_append, List.map_cons, Option.getD_some]

/-- Octets up to a line feed are read by themselves. -/
theorem decodeLossy_append_of_ended {as : List UInt8}
    (h : as = [] ∨ as.getLast? = some lineFeed) (bs : List UInt8) :
    decodeLossy (as ++ bs) = decodeLossy as ++ decodeLossy bs := by
  rcases h with rfl | h
  · rfl
  · obtain ⟨before, rfl⟩ := List.getLast?_eq_some_iff.1 h
    rw [List.append_assoc, List.singleton_append, decodeLossy_append_lineFeed,
      decodeLossy_append_lineFeed, List.append_assoc]
    rfl

/-- Octets up to a line feed make a text up to a line feed. -/
theorem decodeLossy_ended {as : List UInt8} (h : as = [] ∨ as.getLast? = some lineFeed) :
    decodeLossy as = [] ∨ ∃ before, decodeLossy as = before ++ ['\n'] := by
  rcases h with rfl | h
  · exact Or.inl rfl
  · obtain ⟨before, rfl⟩ := List.getLast?_eq_some_iff.1 h
    exact Or.inr ⟨decodeLossy before, decodeLossy_append_lineFeed before []⟩

/-- Only the number of a line feed stands for a line feed. -/
theorem eq_ten_of_ofNat {n : Nat} (h : Char.ofNat n = '\n') : n = 10 := by
  by_cases hn : n.isValidChar
  · have hval : (Char.ofNat n).toNat = n := by
      rw [Char.ofNat, dif_pos hn]
      rfl
    rw [h] at hval
    exact hval.symm
  · rw [Char.ofNat, dif_neg hn] at h
    exact absurd h (by decide)

theorem lineFeed_not_mem_start {b : Nat} (hb : b ≠ 10) : some '\n' ∉ (start b).1 := by
  unfold start
  split_ifs <;> simp only [List.mem_cons, List.not_mem_nil, or_false, reduceCtorEq,
    not_false_eq_true, Option.some.injEq]
  exact fun h => hb (eq_ten_of_ofNat h.symm)

theorem lineFeed_not_mem_step {s : State} (hs : s.Sound) {b : Nat} (hb : b ≠ 10) :
    some '\n' ∉ (step s b).1 := by
  cases s with
  | ready => exact lineFeed_not_mem_start hb
  | inside value left low high =>
      simp only [State.Sound] at hs
      simp only [step]
      split_ifs with hin hleft
      · -- the finished character has a number of at least 64
        simp only [List.mem_singleton, Option.some.injEq]
        intro h
        have := eq_ten_of_ofNat h.symm
        omega
      · simp
      · simp only [List.mem_cons, reduceCtorEq, false_or]
        exact lineFeed_not_mem_start hb

theorem lineFeed_not_mem_scan {s : State} (hs : s.Sound) {bs : List UInt8} (h : lineFeed ∉ bs) :
    some '\n' ∉ scan s bs := by
  induction bs generalizing s with
  | nil => cases s <;> simp [State.rest]
  | cons b rest ih =>
      rw [List.mem_cons, not_or] at h
      have hb : b.toNat ≠ 10 := fun hb => h.1 (UInt8.toNat_inj.1 hb).symm
      rw [scan_cons, List.mem_append, not_or]
      exact ⟨lineFeed_not_mem_step hs hb, ih (step_sound hs b.toNat) h.2⟩

/-- Octets without a line feed make a text without a line feed. -/
theorem lineFeed_not_mem_decodeLossy {bs : List UInt8} (h : lineFeed ∉ bs) :
    '\n' ∉ decodeLossy bs := by
  intro hmem
  obtain ⟨o, ho, hc⟩ := List.mem_map.1 hmem
  cases o with
  | none => exact absurd hc (by decide)
  | some c =>
      rw [Option.getD_some] at hc
      subst hc
      exact lineFeed_not_mem_scan (s := .ready) trivial h ho

/-- A text has as many line feeds as the octets that it was read from. -/
theorem count_lineFeed_decodeLossy (bs : List UInt8) :
    (decodeLossy bs).count '\n' = bs.count lineFeed := by
  induction hlength : bs.length using Nat.strongRecOn generalizing bs with
  | ind length ih =>
      subst hlength
      by_cases hmem : lineFeed ∈ bs
      · -- both sides count the first line feed and those behind it
        obtain ⟨line, rest, rfl, hline⟩ := List.eq_append_cons_of_mem hmem
        have hfront : (decodeLossy line).count '\n' = 0 :=
          List.count_eq_zero.2 (lineFeed_not_mem_decodeLossy hline)
        have hrest := ih rest.length (by simp; omega) rest rfl
        rw [decodeLossy_append_lineFeed, List.count_append, List.count_cons_self, hfront, hrest,
          List.count_append, List.count_cons_self, List.count_eq_zero.2 hline]
      · rw [List.count_eq_zero.2 hmem, List.count_eq_zero.2 (lineFeed_not_mem_decodeLossy hmem)]

end Utf8

/-! ## Lines -/

theorem linesFrom_append_lineFeed (held as bs : List Char) :
    linesFrom held (as ++ '\n' :: bs) = linesFrom held (as ++ ['\n']) ++ linesFrom [] bs := by
  induction as generalizing held with
  | nil => rfl
  | cons a rest ih =>
      rw [List.cons_append, List.cons_append, linesFrom, linesFrom]
      split
      · rw [ih, List.cons_append]
      · exact ih (a :: held)

/-- Behind a line feed the division into lines starts afresh. -/
theorem lines_append_lineFeed (as bs : List Char) :
    lines (as ++ '\n' :: bs) = lines (as ++ ['\n']) ++ lines bs :=
  linesFrom_append_lineFeed [] as bs

theorem linesFrom_append_of_not_mem {as : List Char} (h : '\n' ∉ as) (held bs : List Char) :
    linesFrom held (as ++ bs) = linesFrom (as.reverse ++ held) bs := by
  induction as generalizing held with
  | nil => rfl
  | cons a rest ih =>
      rw [List.mem_cons, not_or] at h
      have ha : (a == '\n') = false := beq_false_of_ne (Ne.symm h.1)
      rw [List.cons_append, linesFrom, ha, if_neg Bool.false_ne_true, ih h.2, List.reverse_cons,
        List.append_assoc, List.singleton_append]

/-- The first line of a text is what stands in front of its first line feed. -/
theorem lines_cons_of_not_mem {as : List Char} (h : '\n' ∉ as) (bs : List Char) :
    lines (as ++ '\n' :: bs) = closeLine as.reverse :: lines bs := by
  rw [lines, linesFrom_append_of_not_mem h, List.append_nil, linesFrom, if_pos (beq_self_eq_true _)]
  rfl

/-- A text without a line feed is a line, unless it is empty. -/
theorem lines_of_not_mem {as : List Char} (h : '\n' ∉ as) (hne : as ≠ []) : lines as = [as] := by
  have hlines := linesFrom_append_of_not_mem h [] []
  rw [List.append_nil, List.append_nil] at hlines
  rw [lines, hlines, linesFrom, if_neg (by simpa using hne), List.reverse_reverse]

theorem not_mem_closeLine {c : Char} {held : List Char} (h : c ∉ held) : c ∉ closeLine held := by
  unfold closeLine
  split
  · exact fun hc => h (List.mem_cons_of_mem _ (List.mem_reverse.1 hc))
  · exact fun hc => h (List.mem_reverse.1 hc)

theorem lineFeed_not_mem_of_mem_linesFrom {held cs line : List Char} (hheld : '\n' ∉ held)
    (h : line ∈ linesFrom held cs) : '\n' ∉ line := by
  induction cs generalizing held with
  | nil =>
      rw [linesFrom] at h
      split at h
      · cases h
      · rw [List.mem_singleton.1 h, List.mem_reverse]
        exact hheld
  | cons c cs ih =>
      rw [linesFrom] at h
      by_cases hc : c = '\n'
      · rw [if_pos (by simpa using hc)] at h
        rcases List.mem_cons.1 h with rfl | h
        · exact not_mem_closeLine hheld
        · exact ih List.not_mem_nil h
      · rw [if_neg (by simpa using hc)] at h
        refine ih ?_ h
        rw [List.mem_cons, not_or]
        exact ⟨Ne.symm hc, hheld⟩

/-- No line holds a line feed. -/
theorem lineFeed_not_mem_of_mem_lines {text line : List Char} (h : line ∈ lines text) :
    '\n' ∉ line :=
  lineFeed_not_mem_of_mem_linesFrom List.not_mem_nil h

/-- A text that ends with a line feed is divided by itself, whatever stands behind it. -/
theorem lines_append_of_ended {front : List Char}
    (h : front = [] ∨ ∃ before, front = before ++ ['\n']) (behind : List Char) :
    lines (front ++ behind) = lines front ++ lines behind := by
  rcases h with rfl | ⟨before, rfl⟩
  · rfl
  · rw [List.append_assoc, List.singleton_append, lines_append_lineFeed]

theorem length_linesFrom_lineFeed (held before : List Char) :
    (linesFrom held (before ++ ['\n'])).length = before.count '\n' + 1 := by
  induction before generalizing held with
  | nil => rfl
  | cons c rest ih =>
      rw [List.cons_append, linesFrom]
      by_cases hc : c = '\n'
      · simp [hc, ih]
      · simp [hc, ih]

/-- A text that ends with a line feed has as many lines as line feeds. -/
theorem length_lines_of_ended {text : List Char}
    (h : text = [] ∨ ∃ before, text = before ++ ['\n']) :
    (lines text).length = text.count '\n' := by
  rcases h with rfl | ⟨before, rfl⟩
  · rfl
  · rw [lines, length_linesFrom_lineFeed, List.count_append, List.count_singleton_self]

theorem numberFrom_append {α : Type} (n : Nat) (as bs : List α) :
    numberFrom n (as ++ bs) = numberFrom n as ++ numberFrom (n + as.length) bs := by
  induction as generalizing n with
  | nil => rfl
  | cons a as ih =>
      rw [List.cons_append, numberFrom, ih, numberFrom, List.cons_append, List.length_cons,
        Nat.add_assoc, Nat.add_comm 1]

theorem mem_of_mem_numberFrom {α : Type} {n m : Nat} {a : α} {as : List α}
    (h : (m, a) ∈ numberFrom n as) : a ∈ as := by
  induction as generalizing n with
  | nil => cases h
  | cons first rest ih =>
      rw [numberFrom] at h
      rcases List.mem_cons.1 h with heq | h
      · cases heq
        exact List.mem_cons_self
      · exact List.mem_cons_of_mem _ (ih h)

end SigVerdict.Text
