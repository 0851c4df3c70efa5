import SigVerdict.Text.Numeral

set_option autoImplicit false

/-! # Bounded integers

An integer is written as an optional sign and decimal digits of ASCII. A reader knows the range
it fills: it refuses a numeral at the first digit that leaves the range, or at the first
character that is no digit, whichever comes first. -/

namespace SigVerdict.Text

/-- Why a text is no integer of a range. -/
inductive IntegerFault where
  | empty
  | invalidDigit
  | tooLarge
  | tooSmall
  deriving DecidableEq, Repr

/-- The wording of an integer fault. -/
def IntegerFault.message : IntegerFault → String
  | .empty => "cannot parse integer from empty string"
  | .invalidDigit => "invalid digit found in string"
  | .tooLarge => "number too large to fit in target type"
  | .tooSmall => "number too small to fit in target type"

/-- Read digits behind a number that is at most `most` so far; `excess` is the fault of a number
    that grows beyond `most`. -/
def readDigits (most : Nat) (excess : IntegerFault) : Nat → List Char → Except IntegerFault Nat
  | n, [] => .ok n
  | n, c :: cs =>
    match digitValue? c with
    | none => .error .invalidDigit
    | some d => if most < 10 * n + d then .error excess else
      readDigits most excess (10 * n + d) cs

/-- Read a number of at most `most`: an optional plus sign and digits. -/
def readNatural (most : Nat) : List Char → Except IntegerFault Nat
  | [] => .error .empty
  | ['+'] => .error .invalidDigit
  | '+' :: cs => readDigits most .tooLarge 0 cs
  | cs => readDigits most .tooLarge 0 cs

/-- A range of integers that a reader fills: the greatest one, and how far it reaches below
    zero. A range of natural numbers knows no minus sign. -/
inductive IntegerRange where
  | natural (most : Nat)
  | signed (most least : Nat)
  deriving DecidableEq, Repr

/-- The natural numbers of 32 bits. -/
def IntegerRange.word32 : IntegerRange := .natural 0xffffffff

/-- The integers of 64 bits. -/
def IntegerRange.signed64 : IntegerRange := .signed 0x7fffffffffffffff 0x8000000000000000

/-- The integers of a range. -/
def IntegerRange.Holds : IntegerRange → Int → Prop
  | .natural most, n => 0 ≤ n ∧ n ≤ most
  | .signed most least, n => -(least : Int) ≤ n ∧ n ≤ most

instance (r : IntegerRange) (n : Int) : Decidable (r.Holds n) := by
  cases r <;> unfold IntegerRange.Holds <;> infer_instance

/-- Read an integer of a range. -/
def readInteger : IntegerRange → List Char → Except IntegerFault Int
  | .natural most, cs => (readNatural most cs).map Int.ofNat
  | .signed _ least, '-' :: c :: cs =>
    (readDigits least .tooSmall 0 (c :: cs)).map fun n => -Int.ofNat n
  | .signed most _, cs => (readNatural most cs).map Int.ofNat

/-! ## A number that is read lies in its range -/

theorem readDigits_le {most : Nat} {excess : IntegerFault} {n m : Nat} {cs : List Char}
    (hn : n ≤ most) (h : readDigits most excess n cs = .ok m) : m ≤ most := by
  induction cs generalizing n with
  | nil =>
    simp only [readDigits, Except.ok.injEq] at h
    omega
  | cons c cs ih =>
    rw [readDigits] at h
    split at h
    · cases h
    · split at h
      · cases h
      · exact ih (by omega) h

theorem readNatural_le {most n : Nat} {cs : List Char} (h : readNatural most cs = .ok n) :
    n ≤ most := by
  unfold readNatural at h
  split at h
  · cases h
  · cases h
  · exact readDigits_le (Nat.zero_le _) h
  · exact readDigits_le (Nat.zero_le _) h

private theorem map_eq_ok {ε α β : Type} {f : α → β} {r : Except ε α} {b : β}
    (h : r.map f = .ok b) : ∃ a, r = .ok a ∧ f a = b := by
  cases r with
  | error e => cases h
  | ok a => exact ⟨a, rfl, by simpa [Except.map] using h⟩

theorem readInteger_holds {r : IntegerRange} {n : Int} {cs : List Char}
    (h : readInteger r cs = .ok n) : r.Holds n := by
  unfold readInteger at h
  split at h <;> obtain ⟨m, hm, rfl⟩ := map_eq_ok h
  · have := readNatural_le hm
    simp only [IntegerRange.Holds, Int.ofNat_eq_natCast]
    omega
  · have := readDigits_le (Nat.zero_le _) hm
    simp only [IntegerRange.Holds, Int.ofNat_eq_natCast]
    omega
  · have := readNatural_le hm
    simp only [IntegerRange.Holds, Int.ofNat_eq_natCast]
    omega

end SigVerdict.Text
