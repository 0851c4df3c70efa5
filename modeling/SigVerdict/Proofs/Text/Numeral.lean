import Mathlib.Data.List.Basic
import Mathlib.Data.List.Induction
import SigVerdict.Proofs.Text.Integer
import SigVerdict.Proofs.Text.Token

set_option autoImplicit false

/-! # Numerals

A numeral is a token (`token_integerDigits`), and it says its number (`says_integerDigits`), so that
a reader gives back the number if it is in its range (`readInteger_integerDigits`). A writer finds
the digits from the back, and so the value of the digits is found by an induction on the number
(`numeralValue_digits`). It can be told from what stands behind it (`integerDigits_append_inj`).

A numeral has no zeros in front, and any other digits with the same value differ from it by such
zeros only (`Digits.dropWhile_eq_digits`). So an integer has one canonical way to be written
(`canonical_iff`). -/

namespace SigVerdict.Text

/-! ## Digits -/

theorem digitValue?_digitOf {d : Nat} (h : d < 10) : digitValue? (digitOf d) = some d := by
  have hall : ∀ d < 10, digitValue? (digitOf d) = some d := by decide
  exact hall d h

theorem digitValue?_eq_some_iff {c : Char} {d : Nat} :
    digitValue? c = some d ↔ d < 10 ∧ c = digitOf d := by
  constructor
  · intro h
    unfold digitValue? at h
    split at h
    · next hc =>
        have hlow : 48 ≤ c.toNat := hc.1
        have hhigh : c.toNat ≤ 57 := hc.2
        have hd : c.toNat - 48 = d := Option.some.inj h
        refine ⟨by omega, ?_⟩
        have hback : 48 + d = c.toNat := by omega
        show c = Char.ofNat (48 + d)
        rw [hback, Char.ofNat_toNat]
    · cases h
  · rintro ⟨hd, rfl⟩
    exact digitValue?_digitOf hd

theorem isBlank_digitOf {d : Nat} (h : d < 10) : isBlank (digitOf d) = false := by
  have hall : ∀ d < 10, isBlank (digitOf d) = false := by decide
  exact hall d h

theorem digits_of_lt {n : Nat} (h : n < 10) : digits n = [digitOf n] := by
  rw [digits, if_pos h]

theorem digits_of_ge {n : Nat} (h : 10 ≤ n) : digits n = digits (n / 10) ++ [digitOf (n % 10)] := by
  rw [digits, if_neg (Nat.not_lt.2 h)]

theorem exists_digitOf_of_mem_digits {n : Nat} {c : Char} (h : c ∈ digits n) :
    ∃ d < 10, c = digitOf d := by
  induction n using Nat.strong_induction_on with
  | _ n ih =>
      by_cases hn : n < 10
      · rw [digits_of_lt hn] at h
        exact ⟨n, hn, List.mem_singleton.1 h⟩
      · rw [digits_of_ge (Nat.not_lt.1 hn)] at h
        rcases List.mem_append.1 h with h | h
        · exact ih (n / 10) (Nat.div_lt_self (by omega) (by omega)) h
        · exact ⟨n % 10, Nat.mod_lt n (by omega), List.mem_singleton.1 h⟩

theorem digits_ne_nil (n : Nat) : digits n ≠ [] := by
  rw [digits]
  split
  · exact List.cons_ne_nil _ _
  · exact List.append_ne_nil_of_right_ne_nil _ (List.cons_ne_nil _ _)

theorem token_digits (n : Nat) : Token (digits n) := by
  refine ⟨digits_ne_nil n, fun c hc => ?_⟩
  obtain ⟨d, hd, rfl⟩ := exists_digitOf_of_mem_digits hc
  exact isBlank_digitOf hd

theorem token_integerDigits (n : Int) : Token (integerDigits n) := by
  cases n with
  | ofNat n => exact token_digits n
  | negSucc n =>
      refine ⟨List.cons_ne_nil _ _, List.forall_mem_cons.2 ⟨by decide, ?_⟩⟩
      exact (token_digits (n + 1)).2

/-! ## Reading a numeral -/

theorem numeralValue_append (n : Nat) (cs ds : List Char) :
    numeralValue n (cs ++ ds) = numeralValue (numeralValue n cs) ds :=
  List.foldl_append

/-- The digits of a number have its value. -/
theorem numeralValue_digits (n : Nat) : numeralValue 0 (digits n) = n := by
  induction n using Nat.strong_induction_on with
  | _ n ih =>
      by_cases hn : n < 10
      · rw [digits_of_lt hn]
        simp [numeralValue, digitValue?_digitOf hn]
      · have hdigit : n % 10 < 10 := Nat.mod_lt n (by omega)
        have hfront := ih (n / 10) (by omega)
        rw [digits_of_ge (Nat.not_lt.1 hn), numeralValue_append, hfront, numeralValue_cons,
          digitValue?_digitOf hdigit]
        exact Nat.div_add_mod n 10

theorem digits_digits (n : Nat) : Digits (digits n) n := by
  refine ⟨?_, numeralValue_digits n⟩
  simp only [isNumeral, Bool.and_eq_true, Bool.not_eq_true', List.isEmpty_eq_false_iff, ne_eq,
    digits_ne_nil, not_false_eq_true, List.all_eq_true, true_and]
  intro c hc
  obtain ⟨d, hd, rfl⟩ := exists_digitOf_of_mem_digits hc
  rw [digitValue?_digitOf hd]
  rfl

/-- The numeral of an integer in a range says this integer in the way of the range. -/
theorem says_integerDigits {r : IntegerRange} {n : Int} (h : r.Holds n) :
    r.Says (integerDigits n) n := by
  have hnatural : ∀ m, SaysNatural (digits m) m := fun m => ⟨digits m, Or.inl rfl, digits_digits m⟩
  cases r with
  | natural most =>
      obtain ⟨m, rfl⟩ := Int.eq_ofNat_of_zero_le h.1
      exact ⟨m, hnatural m, rfl⟩
  | signed most least =>
      cases n with
      | ofNat m => exact Or.inl ⟨m, hnatural m, rfl⟩
      | negSucc m => exact Or.inr ⟨digits (m + 1), m + 1, rfl, digits_digits (m + 1), rfl⟩

/-- The numeral of an integer in the range of a reader is read as this integer. -/
theorem readInteger_integerDigits {r : IntegerRange} {n : Int} (h : r.Holds n) :
    readInteger r (integerDigits n) = .ok n :=
  readInteger_eq_ok_iff.2 ⟨says_integerDigits h, h⟩

/-! ## Numerals in front of other text -/

theorem integerDigits_injective : Function.Injective integerDigits := by
  intro a b h
  -- both are read back in a range that is wide enough for them
  let r := IntegerRange.signed (max a.natAbs b.natAbs) (max a.natAbs b.natAbs)
  have ha : r.Holds a := by constructor <;> omega
  have hb : r.Holds b := by constructor <;> omega
  have hread := readInteger_integerDigits ha
  rw [h, readInteger_integerDigits hb, Except.ok.injEq] at hread
  exact hread.symm

theorem not_mem_integerDigits {c : Char} (hminus : c ≠ '-') (hdigit : digitValue? c = none)
    (n : Int) : c ∉ integerDigits n := by
  have hdigits : ∀ m, c ∉ digits m := by
    intro m hmem
    obtain ⟨d, hd, rfl⟩ := exists_digitOf_of_mem_digits hmem
    rw [digitValue?_digitOf hd] at hdigit
    cases hdigit
  cases n with
  | ofNat m => exact hdigits m
  | negSucc m =>
      show c ∉ '-' :: digits (m + 1)
      simp [hminus, hdigits]

/-- A numeral ends in front of the first character that it cannot hold. -/
theorem integerDigits_append_inj {c : Char} (hminus : c ≠ '-') (hdigit : digitValue? c = none)
    {a b : Int} {cs ds : List Char} :
    integerDigits a ++ c :: cs = integerDigits b ++ c :: ds ↔ a = b ∧ cs = ds := by
  constructor
  · intro h
    have hsplit := congrArg (List.splitOn c) h
    rw [List.splitOn_append_cons_self_of_not_mem (not_mem_integerDigits hminus hdigit a),
      List.splitOn_append_cons_self_of_not_mem (not_mem_integerDigits hminus hdigit b)] at hsplit
    have hab := integerDigits_injective (List.cons.inj hsplit).1
    subst hab
    simpa using h
  · rintro ⟨rfl, rfl⟩
    rfl

/-! ## Leading zeros -/

section

variable {n d : Nat} {c : Char} {ds : List Char}

theorem numeralValue_zero_cons (cs : List Char) : numeralValue 0 ('0' :: cs) = numeralValue 0 cs :=
  rfl

/-- Only the number zero is written with a zero in front. -/
theorem head?_digits_iff : (digits n).head? = some '0' ↔ n = 0 := by
  induction n using Nat.strong_induction_on with
  | _ n ih =>
      by_cases hn : n < 10
      · have hall : ∀ d < 10, digitOf d = '0' ↔ d = 0 := by decide
        rw [digits_of_lt hn, List.head?_cons, Option.some.injEq, hall n hn]
      · rw [digits_of_ge (Nat.not_lt.1 hn), List.head?_append_of_ne_nil _ (digits_ne_nil _),
          ih (n / 10) (by omega)]
        omega

/-- One more digit behind a number that is not zero. -/
theorem digits_mul_add {m : Nat} (hm : m ≠ 0) (hd : d < 10) :
    digits (10 * m + d) = digits m ++ [digitOf d] := by
  rw [digits_of_ge (by omega), Nat.mul_add_div (by decide), Nat.div_eq_of_lt hd, Nat.add_zero,
    Nat.mul_add_mod, Nat.mod_eq_of_lt hd]

/-- The last digit of a row, and what stands in front of it. -/
theorem Digits.exists_last {front : List Char} (h : Digits (front ++ [c]) n) :
    ∃ d < 10, c = digitOf d ∧ n = 10 * numeralValue 0 front + d ∧
      (front ≠ [] → Digits front (numeralValue 0 front)) := by
  obtain ⟨hall, hvalue⟩ := h
  simp only [isNumeral, Bool.and_eq_true, List.all_append, List.all_cons, List.all_nil,
    Bool.and_true] at hall
  obtain ⟨-, hfront, hc⟩ := hall
  obtain ⟨d, hd⟩ := Option.isSome_iff_exists.1 hc
  obtain ⟨hlt, rfl⟩ := digitValue?_eq_some_iff.1 hd
  rw [numeralValue_append, numeralValue_cons, hd] at hvalue
  refine ⟨d, hlt, rfl, hvalue.symm, ?_⟩
  intro hne
  refine ⟨?_, rfl⟩
  simp [isNumeral, hne, hfront]

/-- A row of digits without a zero in front is how its value is written. -/
theorem Digits.eq_digits (h : Digits ds n) (hhead : ds.head? ≠ some '0') : ds = digits n := by
  -- from the back, as a number is written
  induction ds using List.reverseRecOn generalizing n with
  | nil => exact absurd rfl h.ne_nil
  | append_singleton front c ih =>
      obtain ⟨d, hd, rfl, rfl, hfront⟩ := h.exists_last
      by_cases hnil : front = []
      · subst hnil
        show [digitOf d] = digits (10 * 0 + d)
        rw [Nat.mul_zero, Nat.zero_add, digits_of_lt hd]
      · rw [List.head?_append_of_ne_nil _ hnil] at hhead
        have heq := ih (hfront hnil) hhead
        have hpos : numeralValue 0 front ≠ 0 := by
          rwa [heq, ne_eq, head?_digits_iff] at hhead
        rw [digits_mul_add hpos hd, ← heq]

/-- Without the zeros in front, a positive number has its value still. -/
theorem Digits.dropWhile_zero (h : Digits ds n) (hn : 0 < n) :
    Digits (ds.dropWhile (· == '0')) n := by
  induction ds with
  | nil => exact absurd rfl h.ne_nil
  | cons c cs ih =>
      by_cases hc : c = '0'
      · subst hc
        obtain ⟨hall, hvalue⟩ := digits_cons_iff.1 h
        rw [numeralValue_zero_cons] at hvalue
        rw [List.dropWhile_cons_of_pos (by rfl)]
        cases cs with
        | nil =>
            have hzero : 0 = n := hvalue
            omega
        | cons d rest => exact ih (digits_cons_iff.2 ⟨(List.forall_mem_cons.1 hall).2, hvalue⟩)
      · rw [List.dropWhile_cons_of_neg (by simpa using hc)]
        exact h

/-- Without the zeros in front, the digits of a positive number are those that it is written in. -/
theorem Digits.dropWhile_eq_digits (h : Digits ds n) (hn : 0 < n) :
    ds.dropWhile (· == '0') = digits n := by
  refine (h.dropWhile_zero hn).eq_digits ?_
  have hhead := List.head?_dropWhile_not (· == '0') ds
  intro hzero
  rw [hzero] at hhead
  exact absurd hhead (by decide)

/-- The canonical way to write an integer: its digits without a zero in front, behind a minus sign
    if it is negative, and a single zero for zero. -/
inductive Canonical : List Char → Int → Prop where
  | zero : Canonical ['0'] 0
  | positive {ds : List Char} {n : Nat} (hdigits : Digits ds n) (hhead : ds.head? ≠ some '0') :
      Canonical ds n
  | negative {ds : List Char} {n : Nat} (hdigits : Digits ds n) (hhead : ds.head? ≠ some '0') :
      Canonical ('-' :: ds) (-(n : Int))

/-- The value of digits without a zero in front is not zero. -/
theorem Digits.ne_zero (h : Digits ds n) (hhead : ds.head? ≠ some '0') : n ≠ 0 := by
  rwa [h.eq_digits hhead, ne_eq, head?_digits_iff] at hhead

/-- An integer is written canonically by its numeral, and only so. -/
theorem canonical_iff {cs : List Char} {k : Int} : Canonical cs k ↔ cs = integerDigits k := by
  constructor
  · intro h
    cases h with
    | zero =>
        show ['0'] = digits 0
        rw [digits_of_lt (by decide)]
        rfl
    | positive hdigits hhead => exact hdigits.eq_digits hhead
    | @negative ds n hdigits hhead =>
        obtain ⟨m, rfl⟩ := Nat.exists_eq_succ_of_ne_zero (hdigits.ne_zero hhead)
        show '-' :: ds = '-' :: digits (m + 1)
        rw [hdigits.eq_digits hhead]
  · rintro rfl
    cases k with
    | ofNat n =>
        show Canonical (digits n) n
        by_cases hn : n = 0
        · rw [hn, digits_of_lt (by decide)]
          exact .zero
        · exact .positive (digits_digits n) (mt head?_digits_iff.1 hn)
    | negSucc n =>
        exact .negative (digits_digits (n + 1)) (mt head?_digits_iff.1 n.succ_ne_zero)

end

end SigVerdict.Text
