import SigVerdict.Format.Toml
import SigVerdict.Text.Numeral

set_option autoImplicit false

/-! # Literals of TOML

A value that starts with none of the brackets and quotes is a row of letters, digits and a few
signs: a truth value, a number, a date or a time. A date and a time may have one blank between
them. -/

namespace SigVerdict.Toml

open Text

/-- A character of a literal. -/
def isLiteralChar (c : Char) : Bool :=
  ('A' ≤ c && c ≤ 'Z') || ('a' ≤ c && c ≤ 'z') || ('0' ≤ c && c ≤ '9') ||
    c == '+' || c == '-' || c == '_' || c == '.' || c == ':'

/-- A decimal digit. -/
def isDigit (c : Char) : Bool := '0' ≤ c && c ≤ '9'

/-! ## Numbers -/

/-- Whether a text is a row of digits that may have single underscores between them. -/
def isDigitRow (isDigit : Char → Bool) : List Char → Bool
  | [] => false
  | [c] => isDigit c
  | c :: '_' :: cs => isDigit c && isDigitRow isDigit cs
  | c :: cs => isDigit c && isDigitRow isDigit cs

/-- The digits of a row. -/
def digitsOf (cs : List Char) : List Char := cs.filter (· != '_')

/-- A number without its sign, and whether that is a minus sign. -/
def withoutSign : List Char → Bool × List Char
  | '+' :: cs => (false, cs)
  | '-' :: cs => (true, cs)
  | cs => (false, cs)

/-- Whether a text is a decimal number without a sign and without needless zeros in front. -/
def isWhole (cs : List Char) : Bool :=
  isDigitRow isDigit cs && (cs == ['0'] || cs.head? != some '0')

/-- The greatest integer of 64 bits; the least one has one more as its magnitude. -/
def mostPositive : Nat := 0x7fffffffffffffff

/-- Whether a text is a decimal integer of 64 bits. -/
def isDecimalInteger (cs : List Char) : Bool :=
  let (negative, cs) := withoutSign cs
  isWhole cs && numeralValue 0 (digitsOf cs) ≤ if negative then mostPositive + 1 else mostPositive

/-- Whether a text is a row of digits of a base whose value fits 63 bits. -/
def isBased (base : Nat) (cs : List Char) : Bool :=
  isDigitRow (isDigitBelow base) cs && basedValue base (digitsOf cs) ≤ mostPositive

/-- Whether a text is an integer. -/
def isInteger : List Char → Bool
  | '0' :: 'x' :: cs => isBased 16 cs
  | '0' :: 'o' :: cs => isBased 8 cs
  | '0' :: 'b' :: cs => isBased 2 cs
  | cs => isDecimalInteger cs

/-- The exponent of a number, whose letter is left out. -/
def exponent? (cs : List Char) : Option Int :=
  let (negative, cs) := withoutSign cs
  if isDigitRow isDigit cs then
    let n : Int := numeralValue 0 (digitsOf cs)
    some (if negative then -n else n)
  else none

/-- Whether a text is a number with a fraction, an exponent or both that does not grow beyond all
    bounds. A negative one may. -/
def isFraction (cs : List Char) : Bool :=
  let (negative, cs) := withoutSign cs
  let isMark := fun c => c == 'e' || c == 'E'
  let number := cs.takeWhile (!isMark ·)
  let power := (cs.dropWhile (!isMark ·)).drop 1
  let hasPower := number.length < cs.length
  let whole := number.takeWhile (· != '.')
  let part := (number.dropWhile (· != '.')).drop 1
  let hasPart := whole.length < number.length
  isWhole whole && (hasPart || hasPower) && (!hasPart || isDigitRow isDigit part) &&
    match if hasPower then exponent? power else some 0 with
    | none => false
    | some e =>
      negative || roundsToFinite (numeralValue 0 (digitsOf (whole ++ part)))
        (e - ((digitsOf part).length : Int))

/-- Whether a text stands for no finite number. -/
def isSpecial (cs : List Char) : Bool :=
  let (_, cs) := withoutSign cs
  cs == "inf".toList || cs == "nan".toList

/-! ## Dates and times -/

/-- The number of two digits, if it lies in a range. -/
def twoDigits (least most : Nat) (a b : Char) : Bool :=
  isDigit a && isDigit b && least ≤ numeralValue 0 [a, b] && numeralValue 0 [a, b] ≤ most

/-- The number of days of a month. -/
def daysOf (year month : Nat) : Nat :=
  if month = 2 then
    if year % 4 = 0 ∧ (year % 100 ≠ 0 ∨ year % 400 = 0) then 29 else 28
  else if month = 4 ∨ month = 6 ∨ month = 9 ∨ month = 11 then 30
  else 31

/-- Whether a text is a day of the calendar. -/
def isDate : List Char → Bool
  | [y₁, y₂, y₃, y₄, '-', m₁, m₂, '-', d₁, d₂] =>
    [y₁, y₂, y₃, y₄].all isDigit && twoDigits 1 12 m₁ m₂ &&
      twoDigits 1 (daysOf (numeralValue 0 [y₁, y₂, y₃, y₄]) (numeralValue 0 [m₁, m₂])) d₁ d₂
  | _ => false

/-- Whether a text is a difference to universal time, or none. -/
def isOffset : List Char → Bool
  | [] => true
  | ['Z'] => true
  | ['z'] => true
  | [sign, h₁, h₂, ':', m₁, m₂] =>
    (sign == '+' || sign == '-') && twoDigits 0 23 h₁ h₂ && twoDigits 0 59 m₁ m₂
  | _ => false

/-- Whether a text is a time of the day. Behind a date it may have an offset. -/
def isTime (offset : Bool) : List Char → Bool
  | h₁ :: h₂ :: ':' :: m₁ :: m₂ :: ':' :: s₁ :: s₂ :: rest =>
    let behind := match rest with
      | '.' :: c :: cs => if isDigit c then cs.dropWhile isDigit else rest
      | rest => rest
    twoDigits 0 23 h₁ h₂ && twoDigits 0 59 m₁ m₂ && twoDigits 0 60 s₁ s₂ &&
      if offset then isOffset behind else behind.isEmpty
  | _ => false

/-- Whether a text is a date with a time behind it, joined by a letter. -/
def isDateTime (cs : List Char) : Bool :=
  isDate (cs.take 10) &&
    match cs.drop 10 with
    | 'T' :: time => isTime true time
    | 't' :: time => isTime true time
    | _ => false

/-! ## The reader -/

/-- The value of a literal. -/
def literal? (cs : List Char) : Option Toml :=
  if cs = "true".toList then some (.bool true)
  else if cs = "false".toList then some (.bool false)
  else if isInteger cs || isFraction cs || isSpecial cs then some .number
  else if isDate cs || isDateTime cs || isTime false cs then some .moment
  else none

/-- Read a literal. A blank and a digit behind a date say that a time follows. -/
def literal (cs : List Char) : Option (Toml × List Char) :=
  let first := cs.takeWhile isLiteralChar
  let rest := cs.dropWhile isLiteralChar
  match isDate first, rest with
  | true, ' ' :: c :: cs =>
    if isDigit c then
      let second := (c :: cs).takeWhile isLiteralChar
      if isTime true second then some (.moment, (c :: cs).dropWhile isLiteralChar) else none
    else some (.moment, rest)
  | _, _ => (literal? first).map (·, rest)

end SigVerdict.Toml
