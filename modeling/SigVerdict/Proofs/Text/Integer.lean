import SigVerdict.Proofs.Except
import SigVerdict.Text.Integer

set_option autoImplicit false

/-! # What is read as an integer

A row of decimal digits has a value, found by its places and without any bound (`Digits`). Behind a
plus sign, or without a sign, it says a natural number; behind a minus sign it says a negative one.
A reader accepts exactly the texts that say a number of its range, and reads this number
(`readNatural_eq_ok_iff`, `readInteger_eq_ok_iff`). What is shown by induction is that a reader that
holds a number within its bound ends with the value of all digits, unless this is beyond the bound:
the value never shrinks on the way (`le_numeralValue`), so a refusal comes too early for no numeral.
-/

namespace SigVerdict.Text

/-! ## Numbers that texts say -/

/-- A row of decimal digits, of which there is at least one, has this value. -/
def Digits (cs : List Char) (n : Nat) : Prop := isNumeral cs = true ∧ numeralValue 0 cs = n

/-- A text says a natural number: it is a row of digits with a plus sign in front, or without. -/
def SaysNatural (cs : List Char) (n : Nat) : Prop :=
  ∃ ds, (cs = ds ∨ cs = '+' :: ds) ∧ Digits ds n

/-- A text says an integer: a natural number, or a row of digits with a minus sign in front. -/
def SaysInteger (cs : List Char) (n : Int) : Prop :=
  (∃ m : Nat, SaysNatural cs m ∧ n = m) ∨ ∃ ds m, cs = '-' :: ds ∧ Digits ds m ∧ n = -(m : Int)

/-- A text says an integer in the way of a range: a range of natural numbers knows no minus
    sign. -/
def IntegerRange.Says : IntegerRange → List Char → Int → Prop
  | .natural _, cs, n => ∃ m : Nat, SaysNatural cs m ∧ n = m
  | .signed _ _, cs, n => SaysInteger cs n

/-! ## Digits -/

variable {most least n m : Nat} {excess : IntegerFault} {c : Char} {cs ds : List Char}

theorem numeralValue_cons (n : Nat) (c : Char) (cs : List Char) :
    numeralValue n (c :: cs) = numeralValue (10 * n + (digitValue? c).getD 0) cs := rfl

/-- A number does not shrink when further digits are read. -/
theorem le_numeralValue (n : Nat) (cs : List Char) : n ≤ numeralValue n cs := by
  induction cs generalizing n with
  | nil => exact Nat.le_refl n
  | cons c cs ih =>
      rw [numeralValue_cons]
      have hrest := ih (10 * n + (digitValue? c).getD 0)
      omega

theorem digits_cons_iff :
    Digits (c :: cs) n ↔
      (∀ d ∈ c :: cs, (digitValue? d).isSome = true) ∧ numeralValue 0 (c :: cs) = n := by
  simp [Digits, isNumeral]

theorem Digits.ne_nil (h : Digits ds n) : ds ≠ [] := by
  rintro rfl
  exact absurd h.1 (by decide)

/-- A row of digits starts with a digit. -/
theorem Digits.head (h : Digits (c :: cs) n) : (digitValue? c).isSome = true :=
  (digits_cons_iff.1 h).1 c List.mem_cons_self

theorem not_digits_plus : ¬Digits ('+' :: cs) n := fun h => absurd h.head (by decide)

theorem not_digits_minus : ¬Digits ('-' :: cs) n := fun h => absurd h.head (by decide)

theorem saysNatural_plus_iff : SaysNatural ('+' :: cs) n ↔ Digits cs n := by
  constructor
  · rintro ⟨ds, rfl | hds, h⟩
    · exact absurd h not_digits_plus
    · cases hds
      exact h
  · intro h
    exact ⟨cs, Or.inr rfl, h⟩

/-- Without a plus sign, a natural number is said by its digits alone. -/
theorem saysNatural_iff_digits (hplus : ∀ rest, cs ≠ '+' :: rest) :
    SaysNatural cs n ↔ Digits cs n := by
  constructor
  · rintro ⟨ds, rfl | hds, h⟩
    · exact h
    · exact absurd hds (hplus ds)
  · intro h
    exact ⟨cs, Or.inl rfl, h⟩

/-- A reader that holds a number within its bound reads on to the end exactly when all that is left
    are digits and their value is within the bound. -/
theorem readDigits_eq_ok_iff (hn : n ≤ most) :
    readDigits most excess n cs = .ok m ↔
      (∀ c ∈ cs, (digitValue? c).isSome = true) ∧ numeralValue n cs = m ∧ m ≤ most := by
  induction cs generalizing n with
  | nil =>
      simp only [readDigits, Except.ok.injEq, List.not_mem_nil, false_implies, implies_true,
        true_and, numeralValue, List.foldl_nil]
      constructor
      · rintro rfl
        exact ⟨rfl, hn⟩
      · exact fun h => h.1
  | cons c cs ih =>
      rw [readDigits, numeralValue_cons, List.forall_mem_cons]
      cases hc : digitValue? c with
      | none => simp
      | some d =>
          simp only [Option.isSome_some, true_and, Option.getD_some]
          by_cases hlarge : most < 10 * n + d
          · -- the digits that are left cannot bring the number back
            have hgrows := le_numeralValue (10 * n + d) cs
            rw [if_pos hlarge]
            constructor
            · intro h
              cases h
            · intro h
              omega
          · rw [if_neg hlarge]
            exact ih (Nat.not_lt.1 hlarge)

theorem readDigits_zero_eq_ok_iff (hne : cs ≠ []) :
    readDigits most excess 0 cs = .ok m ↔ Digits cs m ∧ m ≤ most := by
  rw [readDigits_eq_ok_iff (Nat.zero_le most)]
  cases cs with
  | nil => exact absurd rfl hne
  | cons c cs => rw [digits_cons_iff, and_assoc]

/-! ## Readers -/

/-- A reader of natural numbers accepts exactly the texts that say a number within its bound. -/
theorem readNatural_eq_ok_iff :
    readNatural most cs = .ok n ↔ SaysNatural cs n ∧ n ≤ most := by
  unfold readNatural
  split
  · -- nothing at all
    refine ⟨nofun, ?_⟩
    rintro ⟨h, -⟩
    rw [saysNatural_iff_digits (by simp)] at h
    exact absurd rfl h.ne_nil
  · -- a sign without digits
    refine ⟨nofun, ?_⟩
    rintro ⟨h, -⟩
    rw [saysNatural_plus_iff] at h
    exact absurd rfl h.ne_nil
  · next rest hrest =>
      rw [saysNatural_plus_iff]
      exact readDigits_zero_eq_ok_iff (by rintro rfl; exact hrest rfl)
  · next hnil hsign hplus =>
      rw [saysNatural_iff_digits hplus]
      exact readDigits_zero_eq_ok_iff hnil

theorem not_saysNatural_minus : ¬SaysNatural ('-' :: cs) n := by
  rw [saysNatural_iff_digits (by simp)]
  exact not_digits_minus

theorem saysInteger_minus_iff {k : Int} :
    SaysInteger ('-' :: cs) k ↔ ∃ m, Digits cs m ∧ k = -(m : Int) := by
  constructor
  · rintro (⟨m, h, -⟩ | ⟨ds, m, hds, h⟩)
    · exact absurd h not_saysNatural_minus
    · cases hds
      exact ⟨m, h⟩
  · rintro ⟨m, h⟩
    exact Or.inr ⟨cs, m, rfl, h⟩

/-- Without a minus sign in front of something, an integer is said as a natural number. -/
theorem saysInteger_iff_natural {k : Int} (hminus : ∀ c rest, cs ≠ '-' :: c :: rest) :
    SaysInteger cs k ↔ ∃ m : Nat, SaysNatural cs m ∧ k = m := by
  constructor
  · rintro (h | ⟨ds, m, rfl, h, -⟩)
    · exact h
    · cases ds with
      | nil => exact absurd rfl h.ne_nil
      | cons c rest => exact absurd rfl (hminus c rest)
  · exact Or.inl

theorem map_readNatural_eq_ok_iff {k : Int} :
    (readNatural most cs).map Int.ofNat = .ok k ↔
      (∃ m : Nat, SaysNatural cs m ∧ k = m) ∧ 0 ≤ k ∧ k ≤ most := by
  rw [map_eq_ok_iff]
  constructor
  · rintro ⟨m, hm, rfl⟩
    rw [readNatural_eq_ok_iff] at hm
    exact ⟨⟨m, hm.1, rfl⟩, Int.natCast_nonneg m, Int.ofNat_le.2 hm.2⟩
  · rintro ⟨⟨m, hm, rfl⟩, -, hle⟩
    exact ⟨m, readNatural_eq_ok_iff.2 ⟨hm, Int.ofNat_le.1 hle⟩, rfl⟩

/-- A reader accepts exactly the texts that say an integer of its range, in the way of the range. -/
theorem readInteger_eq_ok_iff {range : IntegerRange} {k : Int} :
    readInteger range cs = .ok k ↔ range.Says cs k ∧ range.Holds k := by
  unfold readInteger
  split
  · next most =>
      exact map_readNatural_eq_ok_iff
  · next most least c rest =>
      simp only [IntegerRange.Says, IntegerRange.Holds, saysInteger_minus_iff, map_eq_ok_iff,
        readDigits_zero_eq_ok_iff (List.cons_ne_nil c rest), Int.ofNat_eq_natCast]
      constructor
      · rintro ⟨m, ⟨hm, hle⟩, rfl⟩
        exact ⟨⟨m, hm, rfl⟩, by omega, by omega⟩
      · rintro ⟨⟨m, hm, rfl⟩, hlow, -⟩
        exact ⟨m, ⟨hm, by omega⟩, rfl⟩
  · next most least hminus =>
      rw [map_readNatural_eq_ok_iff, IntegerRange.Says, saysInteger_iff_natural hminus]
      simp only [IntegerRange.Holds]
      apply and_congr_right
      rintro ⟨m, hm, hk⟩
      omega

end SigVerdict.Text
