import SigVerdict.Fault
import SigVerdict.Proofs.Text.Numeral
import SigVerdict.Proofs.Text.Wrap
import SigVerdict.Time.Span.Parser

set_option autoImplicit false

/-! # Spans as text

A span is written as counts of units, each less than one of the next longer unit, and so the lengths
that are counted add up to the span. The reader multiplies and adds in 64 bits. No number that it
comes to on the way is greater than the seconds of the span, or else than a few nanoseconds, so
nothing overflows: every span is read back from its text (`parse?_render`).

So different spans have different texts (`toText_injective`), and this can still be seen in a
message about a time limit (`message_timeout_inj`). -/

namespace SigVerdict.Span

open Text

/-! ## Counts -/

/-- A length in nanoseconds. -/
def Length.toNanos (l : Length) : Nat := l.seconds * 1000000000 + l.nanos

/-- Letters that make a name. -/
def Letters (cs : List Char) : Prop :=
  cs ≠ [] ∧ ∀ c ∈ cs, isUnitLetter c = true ∧ digitValue? c = none ∧ isBlank c = false

instance (cs : List Char) : Decidable (Letters cs) :=
  decidable_of_iff
    (cs ≠ [] ∧ cs.all (fun c => isUnitLetter c && (digitValue? c).isNone && !isBlank c) = true)
    (and_congr_right fun _ => by simp [List.all_eq_true, and_assoc])

/-- A name of a unit that has this length. -/
def Named (name : List Char) (length : Length) : Prop :=
  Letters name ∧ (unit? name).map TimeUnit.whole = some length

/-- A unit has this length, and is named with or without a plural. -/
def Names (unit plural : String) (length : Length) : Prop :=
  Named unit.toList length ∧ Named (unit.toList ++ plural.toList) length

instance (name : List Char) (length : Length) : Decidable (Named name length) :=
  inferInstanceAs (Decidable (_ ∧ _))

instance (unit plural : String) (length : Length) : Decidable (Names unit plural length) :=
  inferInstanceAs (Decidable (_ ∧ _))

namespace Count

/-- The name of the unit as it is written behind the count. -/
def name (c : Count) : List Char :=
  c.unit.toList ++ if 1 < c.count then c.plural.toList else []

/-- What a count adds to a span, in nanoseconds. -/
def toNanos (c : Count) : Nat :=
  match unit? c.name with
  | none => 0
  | some unit => c.count * unit.whole.toNanos

/-- What several counts add to a span. -/
def sum : List Count → Nat
  | [] => 0
  | c :: parts => c.toNanos + sum parts

/-- A count of so long a unit, which a reader can take without leaving 64 bits. -/
structure Counts (c : Count) (length : Length) : Prop where
  names : Names c.unit c.plural length
  count : c.count < 0x10000000000000000
  nanos : c.count * length.nanos < 1000000000

variable {c : Count} {length : Length}

theorem render_eq (c : Count) : c.render = digits c.count ++ c.name := by
  rw [render, name, List.append_assoc]

/-- It does not matter whether the name of the unit has its plural. -/
theorem Counts.name (h : c.Counts length) :
    Letters c.name ∧ ∃ unit, unit? c.name = some unit ∧ unit.whole = length := by
  rw [← Option.map_eq_some_iff]
  unfold Count.name
  split
  · exact h.names.2
  · rw [List.append_nil]
    exact h.names.1

theorem Counts.toNanos (h : c.Counts length) : c.toNanos = c.count * length.toNanos := by
  obtain ⟨-, unit, hunit, rfl⟩ := h.name
  rw [Count.toNanos, hunit]

end Count

/-- The lengths of the units that a span is written in. -/
def lengths : List Length :=
  [⟨31557600, 0⟩, ⟨2630016, 0⟩, ⟨86400, 0⟩, ⟨3600, 0⟩, ⟨60, 0⟩, ⟨1, 0⟩, ⟨0, 1000000⟩, ⟨0, 1000⟩,
    ⟨0, 1⟩]

theorem counts_counts (s : Span) : List.Forall₂ Count.Counts s.counts lengths := by
  have hseconds := s.seconds_lt
  have hnanos := s.nanos_lt
  have hyear : Names "year" "s" ⟨31557600, 0⟩ := by decide
  have hmonth : Names "month" "s" ⟨2630016, 0⟩ := by decide
  have hday : Names "day" "s" ⟨86400, 0⟩ := by decide
  have hhour : Names "h" "" ⟨3600, 0⟩ := by decide
  have hminute : Names "m" "" ⟨60, 0⟩ := by decide
  have hsecond : Names "s" "" ⟨1, 0⟩ := by decide
  have hmilli : Names "ms" "" ⟨0, 1000000⟩ := by decide
  have hmicro : Names "us" "" ⟨0, 1000⟩ := by decide
  have hnano : Names "ns" "" ⟨0, 1⟩ := by decide
  exact .cons ⟨hyear, by simp only; omega, by simp only; omega⟩ <|
    .cons ⟨hmonth, by simp only; omega, by simp only; omega⟩ <|
    .cons ⟨hday, by simp only; omega, by simp only; omega⟩ <|
    .cons ⟨hhour, by simp only; omega, by simp only; omega⟩ <|
    .cons ⟨hminute, by simp only; omega, by simp only; omega⟩ <|
    .cons ⟨hsecond, by simp only; omega, by simp only; omega⟩ <|
    .cons ⟨hmilli, by simp only; omega, by simp only; omega⟩ <|
    .cons ⟨hmicro, by simp only; omega, by simp only; omega⟩ <|
    .cons ⟨hnano, by simp only; omega, by simp only; omega⟩ .nil

theorem exists_counts {s : Span} {c : Count} (h : c ∈ s.counts) : ∃ length, c.Counts length := by
  have hboth := (counts_counts s).imp fun c length h =>
    (⟨⟨length, h⟩, h⟩ : (∃ length, c.Counts length) ∧ c.Counts length)
  exact ((List.forall₂_and_left _ _).1 hboth).1 c h

theorem Count.sum_cons {c : Count} {length : Length} (hc : c.Counts length) (parts : List Count) :
    Count.sum (c :: parts) = c.count * length.toNanos + Count.sum parts := by
  rw [Count.sum, hc.toNanos]

/-- The counts of a span add up to it. -/
theorem sum_counts (s : Span) : Count.sum s.counts = s.toNanos := by
  have hcounts := counts_counts s
  unfold counts lengths at hcounts
  unfold counts
  simp only [List.forall₂_cons] at hcounts
  obtain ⟨hyear, hmonth, hday, hhour, hminute, hsecond, hmilli, hmicro, hnano, -⟩ := hcounts
  rw [Count.sum_cons hyear, Count.sum_cons hmonth, Count.sum_cons hday, Count.sum_cons hhour,
    Count.sum_cons hminute, Count.sum_cons hsecond, Count.sum_cons hmilli, Count.sum_cons hmicro,
    Count.sum_cons hnano, Count.sum]
  simp only [Length.toNanos, toNanos]
  omega

/-! ## Reading a count -/

variable {total n : Nat} {fresh : Bool} {f : Option Fraction} {held cs rest : List Char}
  {length : Length} {c : Count} {parts : List Count}

theorem fit_of_lt (h : n < 0x10000000000000000) : fit n = some n := if_pos h

/-- Digits are read as their number. -/
theorem readFrom_digits (h : n < 0x10000000000000000) (total : Nat) (fresh : Bool)
    (rest : List Char) :
    readFrom total (.between fresh) (digits n ++ rest) = readFrom total (.whole n) rest := by
  induction n using Nat.strong_induction_on generalizing rest with
  | _ n ih =>
      by_cases hn : n < 10
      · rw [digits_of_lt hn, List.singleton_append, readFrom, readChar, digitValue?_digitOf hn]
        rfl
      · have hfront := ih (n / 10) (by omega) (by omega) (digitOf (n % 10) :: rest)
        have hdigit : n % 10 < 10 := Nat.mod_lt n (by decide)
        rw [digits_of_ge (Nat.not_lt.1 hn), List.append_assoc, List.singleton_append, hfront,
          readFrom, readChar, digitValue?_digitOf hdigit]
        simp only [Nat.div_add_mod, fit_of_lt h]
        rfl

/-- Letters go on with the name of a unit. -/
theorem readFrom_letters (h : ∀ c ∈ cs, isUnitLetter c = true ∧ digitValue? c = none ∧
    isBlank c = false) (total n : Nat) (f : Option Fraction) (held rest : List Char) :
    readFrom total (.unit n f held) (cs ++ rest) =
      readFrom total (.unit n f (cs.reverse ++ held)) rest := by
  induction cs generalizing held with
  | nil => rfl
  | cons c cs ih =>
      obtain ⟨⟨hletter, hdigit, hblank⟩, hcs⟩ := List.forall_mem_cons.1 h
      rw [List.cons_append, readFrom, readChar, hdigit]
      simp only [hblank, hletter, Bool.false_eq_true, if_false, if_true, bind, Option.bind_some]
      rw [ih hcs, List.reverse_cons, List.append_assoc, List.singleton_append]

/-- Behind a count with its name, the reader is at the end of the name. -/
theorem readFrom_count (hname : Letters c.name) (hcount : c.count < 0x10000000000000000)
    (total : Nat) (fresh : Bool) (rest : List Char) :
    readFrom total (.between fresh) (c.render ++ rest) =
      readFrom total (.unit c.count none c.name.reverse) rest := by
  rw [c.render_eq, List.append_assoc, readFrom_digits hcount]
  obtain ⟨hne, hletters⟩ := hname
  generalize c.name = name at hne hletters ⊢
  obtain ⟨d, ds, rfl⟩ := List.exists_cons_of_ne_nil hne
  obtain ⟨⟨hletter, hdigit, hblank⟩, hds⟩ := List.forall_mem_cons.1 hletters
  rw [List.cons_append, readFrom, readChar, hdigit]
  simp only [hblank, hletter, Bool.false_eq_true, if_false, if_true, bind, Option.bind_some]
  rw [readFrom_letters hds, List.reverse_cons]

/-- A length is added to a total if the sum does not leave 64 bits. -/
theorem addLength_of_lt (hnanos : length.nanos < 1000000000)
    (hfit : (total + length.toNanos) / 1000000000 < 0x10000000000000000) :
    addLength total length = some (total + length.toNanos) := by
  have hrest : total % 1000000000 + length.nanos < 0x10000000000000000 := by omega
  rw [Length.toNanos, ← Nat.add_assoc] at hfit ⊢
  simp only [addLength, fit_of_lt hrest, fit_of_lt hfit, bind, Option.bind_some]

theorem times_of_counts (h : c.Counts length)
    (hfit : c.toNanos / 1000000000 < 0x10000000000000000) :
    ∃ l, length.times c.count = some l ∧ l.nanos < 1000000000 ∧ l.toNanos = c.toNanos := by
  have hnanos := h.nanos
  rw [h.toNanos, Length.toNanos, Nat.mul_add, ← Nat.mul_assoc] at hfit
  have hseconds : c.count * length.seconds < 0x10000000000000000 := by omega
  have hshort : c.count * length.nanos < 0x10000000000000000 := by omega
  refine ⟨⟨c.count * length.seconds, c.count * length.nanos⟩, ?_, hnanos, ?_⟩
  · simp only [Length.times, fit_of_lt hseconds, fit_of_lt hshort, bind, Option.bind_some]
  · rw [h.toNanos, Length.toNanos, Length.toNanos, Nat.mul_add, Nat.mul_assoc]

/-- A count is added to a total if the sum does not leave 64 bits. -/
theorem addCount_of_counts (h : c.Counts length)
    (hfit : (total + c.toNanos) / 1000000000 < 0x10000000000000000) :
    addCount total c.count none c.name = some (total + c.toNanos) := by
  obtain ⟨-, unit, hunit, rfl⟩ := h.name
  obtain ⟨l, htimes, hnanos, hl⟩ := times_of_counts h (by omega)
  rw [← hl] at hfit ⊢
  simp only [addCount, hunit, htimes, addLength_of_lt hnanos hfit, bind, Option.bind_some]

/-! ## Reading a row of counts -/

/-- A row of counts is read as the sum of them, on top of what has been read before. -/
theorem readFrom_counts (hparts : ∀ c ∈ parts, ∃ length, c.Counts length) (hne : parts ≠ [])
    (hfit : (total + Count.sum parts) / 1000000000 < 0x10000000000000000) :
    readFrom total (.between fresh) (joinWith [' '] (parts.map Count.render)) =
      some (total + Count.sum parts) := by
  -- a count is added at the blank behind it, or at the end
  induction parts generalizing total fresh with
  | nil => exact absurd rfl hne
  | cons c parts ih =>
      obtain ⟨⟨length, hc⟩, hparts⟩ := List.forall_mem_cons.1 hparts
      rw [Count.sum, ← Nat.add_assoc] at hfit ⊢
      have hadd : addCount total c.count none c.name = some (total + c.toNanos) :=
        addCount_of_counts hc (by omega)
      cases parts with
      | nil =>
          have hread := readFrom_count hc.name.1 hc.count total fresh []
          rw [List.append_nil] at hread
          rw [List.map_singleton, joinWith, Count.sum, Nat.add_zero, hread, readFrom, finish,
            List.reverse_reverse, hadd]
      | cons next parts =>
          have hrest := @ih _ false hparts (List.cons_ne_nil next parts) hfit
          simp only [List.map_cons, joinWith, List.append_assoc, List.singleton_append] at hrest ⊢
          rw [readFrom_count hc.name.1 hc.count, readFrom, readChar]
          simp only [show digitValue? ' ' = none by decide, show isBlank ' ' = true by decide,
            if_true, List.reverse_reverse, hadd, Option.map_some, bind, Option.bind_some]
          exact hrest

/-- A span is what its text is read as, with a lone zero read without a unit. -/
theorem parse?_of_readFrom (h : readFrom 0 (.between true) cs = some n) :
    parse? cs = ofNanos? n := by
  unfold parse?
  split
  · next heq =>
      rw [heq] at h
      cases h
  · rw [h]
    rfl

theorem sum_filter_counts (parts : List Count) :
    Count.sum (parts.filter (0 < ·.count)) = Count.sum parts := by
  induction parts with
  | nil => rfl
  | cons c parts ih =>
      by_cases h : 0 < c.count
      · rw [List.filter_cons_of_pos (by simpa using h), Count.sum, Count.sum, ih]
      · have hzero : c.toNanos = 0 := by
          unfold Count.toNanos
          split
          · rfl
          · rw [Nat.eq_zero_of_not_pos h, Nat.zero_mul]
        rw [List.filter_cons_of_neg (by simpa using h), ih, Count.sum, hzero, Nat.zero_add]

/-- **Every span is read back from its text.** -/
theorem parse?_render (s : Span) : parse? s.render = some s := by
  have hsum := sum_filter_counts s.counts
  rw [sum_counts] at hsum
  have hcounts : ∀ c ∈ s.counts.filter (0 < ·.count), ∃ length, c.Counts length :=
    fun c hc => exists_counts (List.mem_of_mem_filter hc)
  have hfit : (0 + s.toNanos) / 1000000000 < 0x10000000000000000 := by
    have hseconds := s.seconds_lt
    have hnanos := s.nanos_lt
    unfold toNanos
    omega
  rw [← ofNanos?_toNanos s]
  apply parse?_of_readFrom
  unfold render
  split
  · next hnil =>
      rw [hnil] at hsum
      rw [← hsum]
      rfl
  · next hne =>
      rw [← hsum] at hfit ⊢
      rw [readFrom_counts hcounts hne hfit, Nat.zero_add]

theorem toList_toText (s : Span) : s.toText.toList = s.render := String.toList_ofList

theorem toText_injective : Function.Injective toText := by
  intro s t h
  have hread := parse?_render s
  rw [String.ofList_injective h, parse?_render t, Option.some.injEq] at hread
  exact hread.symm

/-! ## Messages -/

theorem not_mem_of_unit? {name : List Char} {unit : TimeUnit} (h : unit? name = some unit) :
    'f' ∉ name := by
  have hunits : ∀ unit ∈ units, ∀ known ∈ unit.names, 'f' ∉ known.toList := by decide
  rw [unit?] at h
  have hany := List.find?_some h
  obtain ⟨known, hknown, heq⟩ := List.any_eq_true.1 hany
  rw [← beq_iff_eq.1 heq]
  exact hunits unit (List.mem_of_find?_eq_some h) known hknown

/-- A letter that no unit has is in no span as it is written. -/
theorem not_mem_render (s : Span) : 'f' ∉ s.render := by
  unfold render
  split
  · decide
  · intro hmem
    rcases mem_joinWith hmem with hmem | ⟨part, hpart, hmem⟩
    · exact absurd hmem (by decide)
    · obtain ⟨c, hc, rfl⟩ := List.mem_map.1 hpart
      obtain ⟨length, hcounts⟩ := exists_counts (List.mem_of_mem_filter hc)
      obtain ⟨-, unit, hunit, -⟩ := hcounts.name
      rw [c.render_eq, List.mem_append] at hmem
      rcases hmem with hmem | hmem
      · obtain ⟨d, hd, heq⟩ := exists_digitOf_of_mem_digits hmem
        have hall : ∀ d < 10, 'f' ≠ digitOf d := by decide
        exact hall d hd heq
      · exact not_mem_of_unit? hunit hmem

/-- What stands behind the last of some letter is the same in equal texts. -/
theorem eq_of_append_cons_eq {x : Char} {front front' cs ds : List Char} (hcs : x ∉ cs)
    (hds : x ∉ ds) (h : front ++ x :: cs = front' ++ x :: ds) : cs = ds := by
  rcases List.append_eq_append_iff.1 h with ⟨more, -, hmore⟩ | ⟨more, -, hmore⟩
  · cases more with
    | nil => exact (List.cons.inj hmore).2
    | cons y more => exact absurd (by simp [(List.cons.inj hmore).2]) hcs
  · cases more with
    | nil => exact (List.cons.inj hmore).2.symm
    | cons y more => exact absurd (by simp [(List.cons.inj hmore).2]) hds

/-- **Messages about different time limits differ**, whatever the commands are called. -/
theorem message_timeout_inj {command command' : String} {s t : Span}
    (h : (Fault.timeout command s).message = (Fault.timeout command' t).message) : s = t := by
  have hwords : "' timed out after ".toList = "' timed out a".toList ++ 'f' :: "ter ".toList := by
    decide
  have htext : ∀ command (s : Span), (Fault.timeout command s).message.toList =
      ("GnuPG verification with command '".toList ++ command.toList ++ "' timed out a".toList) ++
        'f' :: ("ter ".toList ++ s.render) := by
    intro command s
    have hmessage : (Fault.timeout command s).message =
        "GnuPG verification with command '" ++ command ++ "' timed out after " ++ s.toText := rfl
    rw [hmessage, String.toList_append, String.toList_append, String.toList_append, hwords,
      toList_toText]
    simp only [List.append_assoc, List.cons_append]
  have hafter : ∀ s : Span, 'f' ∉ "ter ".toList ++ s.render := by
    intro s hmem
    rcases List.mem_append.1 hmem with hmem | hmem
    · exact absurd hmem (by decide)
    · exact not_mem_render s hmem
  have heq := congrArg String.toList h
  rw [htext, htext] at heq
  have hrender := List.append_cancel_left (eq_of_append_cons_eq (hafter s) (hafter t) heq)
  exact toText_injective (congrArg String.ofList hrender)

end SigVerdict.Span
